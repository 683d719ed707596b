import SpecAsCode.Verifier.Evaluate

/-!
# Soundness of property evaluation

The map `latestByCriterion` builds is characterized by the newest records of the
list; from this the four guarantees of the evaluator follow: a satisfied property
has newest supporting evidence for every criterion and a flip for every
discriminating one, a contradiction is never hidden, a waiver is the only way to
the waived state, and the order of the list is irrelevant when the timestamps
differ.
-/

namespace SpecAsCode.Verifier

open SpecAsCode.Js
open SpecAsCode.Schema

/-! ## The newest record of a criterion -/

/-- `e` is the newest record of a criterion: no record of the criterion is stamped
later, and none that follows it in the list is stamped the same. -/
def Newest (criterion : JsString) (evidence : List Evidence) (e : Evidence) : Prop :=
  ∃ before after,
    evidence = before ++ e :: after ∧
      e.criterionId = some criterion ∧
      (∀ other ∈ before, other.criterionId = some criterion → other.timestamp ≤ e.timestamp) ∧
      (∀ other ∈ after, other.criterionId = some criterion → other.timestamp < e.timestamp)

/-- What one record does to the entry of one criterion. -/
theorem recordLatest_apply (latest : JsString → Option Evidence) (e : Evidence)
    (criterion : JsString) :
    recordLatest latest e criterion =
      if e.criterionId = some criterion ∧ displaces e (latest criterion) then
        some e
      else
        latest criterion := by
  unfold recordLatest
  cases named : e.criterionId with
  | none => simp
  | some name =>
      by_cases same : name = criterion
      · subst same
        by_cases displaced : displaces e (latest name) = true
        · simp [displaced]
        · simp [displaced]
      · have other : criterion ≠ name := Ne.symm same
        by_cases displaced : displaces e (latest name) = true
        · simp [displaced, same, other]
        · simp [displaced, same]

theorem latestByCriterion_append (evidence : List Evidence) (e : Evidence) :
    latestByCriterion (evidence ++ [e]) = recordLatest (latestByCriterion evidence) e := by
  simp [latestByCriterion, List.foldl_append]

theorem latestByCriterion_eq_none {evidence : List Evidence} {criterion : JsString} :
    latestByCriterion evidence criterion = none ↔
      ∀ e ∈ evidence, e.criterionId ≠ some criterion := by
  induction evidence using List.reverseRecOn with
  | nil => simp [latestByCriterion]
  | append_singleton evidence e inductionHypothesis =>
      rw [latestByCriterion_append, recordLatest_apply]
      by_cases named : e.criterionId = some criterion
      · constructor
        · intro entry
          split at entry
          · cases entry
          · next kept =>
              rw [entry] at kept
              exact absurd ⟨named, rfl⟩ kept
        · intro absent
          exact absurd named (absent e (by simp))
      · rw [if_neg fun both => named both.1, inductionHypothesis]
        simp [or_imp, forall_and, named]

private theorem newest_append_other {criterion : JsString} {evidence : List Evidence}
    {e added : Evidence}
    (unrelated : added.criterionId = some criterion → added.timestamp < e.timestamp)
    (newest : Newest criterion evidence e) :
    Newest criterion (evidence ++ [added]) e := by
  obtain ⟨before, after, rfl, named, earlier, later⟩ := newest
  refine ⟨before, after ++ [added], by simp, named, earlier, ?_⟩
  intro other member
  rcases List.mem_append.mp member with found | found
  · exact later other found
  · rw [List.mem_singleton.mp found]
    exact unrelated

private theorem newest_append_self {criterion : JsString} {evidence : List Evidence}
    {added : Evidence} (named : added.criterionId = some criterion)
    (bound : ∀ other ∈ evidence, other.criterionId = some criterion →
      other.timestamp ≤ added.timestamp) :
    Newest criterion (evidence ++ [added]) added :=
  ⟨evidence, [], by simp, named, bound, by simp⟩

theorem Newest.bound {criterion : JsString} {evidence : List Evidence} {e : Evidence}
    (newest : Newest criterion evidence e) :
    ∀ other ∈ evidence, other.criterionId = some criterion → other.timestamp ≤ e.timestamp := by
  obtain ⟨before, after, rfl, _, earlier, later⟩ := newest
  intro other member
  rcases List.mem_append.mp member with found | found
  · exact earlier other found
  · rcases List.mem_cons.mp found with rfl | found
    · exact fun _ => le_refl _
    · exact fun named => le_of_lt (later other found named)

theorem Newest.mem {criterion : JsString} {evidence : List Evidence} {e : Evidence}
    (newest : Newest criterion evidence e) : e ∈ evidence := by
  obtain ⟨before, after, rfl, _⟩ := newest
  simp

theorem Newest.named {criterion : JsString} {evidence : List Evidence} {e : Evidence}
    (newest : Newest criterion evidence e) : e.criterionId = some criterion := by
  obtain ⟨before, after, _, named, _⟩ := newest
  exact named

/-- The entry the fold leaves is a newest record. -/
theorem newest_of_latestByCriterion {evidence : List Evidence} {criterion : JsString}
    {e : Evidence} (entry : latestByCriterion evidence criterion = some e) :
    Newest criterion evidence e := by
  induction evidence using List.reverseRecOn generalizing e with
  | nil => cases entry
  | append_singleton evidence added inductionHypothesis =>
      rw [latestByCriterion_append, recordLatest_apply] at entry
      by_cases replaced :
          added.criterionId = some criterion ∧
            displaces added (latestByCriterion evidence criterion)
      · rw [if_pos replaced] at entry
        cases entry
        apply newest_append_self replaced.1
        intro other member otherNamed
        cases prior : latestByCriterion evidence criterion with
        | none => exact absurd otherNamed (latestByCriterion_eq_none.mp prior other member)
        | some current =>
            have older : current.timestamp ≤ added.timestamp := by
              simpa [prior, displaces] using replaced.2
            exact le_trans ((inductionHypothesis prior).bound other member otherNamed) older
      · rw [if_neg replaced] at entry
        apply newest_append_other _ (inductionHypothesis entry)
        intro named
        have kept : ¬ e.timestamp ≤ added.timestamp := by
          simpa [named, entry, displaces] using replaced
        exact lt_of_not_ge kept

private theorem newest_split {criterion : JsString} {evidence : List Evidence}
    {added e : Evidence} (newest : Newest criterion (evidence ++ [added]) e) :
    (e = added ∧ ∀ other ∈ evidence, other.criterionId = some criterion →
        other.timestamp ≤ e.timestamp) ∨
      (Newest criterion evidence e ∧
        (added.criterionId = some criterion → added.timestamp < e.timestamp)) := by
  obtain ⟨before, after, shape, named, earlier, later⟩ := newest
  rcases List.eq_nil_or_concat after with rfl | ⟨after, last, rfl⟩
  · obtain ⟨rfl, single⟩ := List.append_inj' shape rfl
    cases single
    exact Or.inl ⟨rfl, earlier⟩
  · rw [List.concat_eq_append] at shape later
    rw [← List.cons_append, ← List.append_assoc] at shape
    obtain ⟨rfl, single⟩ := List.append_inj' shape rfl
    cases single
    exact Or.inr ⟨⟨before, after, rfl, named, earlier,
      fun other member => later other (by simp [member])⟩, later added (by simp)⟩

/-- Newest records are unique. -/
theorem Newest.unique {criterion : JsString} {evidence : List Evidence} {first second : Evidence}
    (newestFirst : Newest criterion evidence first)
    (newestSecond : Newest criterion evidence second) : first = second := by
  induction evidence using List.reverseRecOn with
  | nil => simpa using newestFirst.mem
  | append_singleton evidence added inductionHypothesis =>
      rcases newest_split newestFirst with ⟨rfl, boundFirst⟩ | ⟨insideFirst, aboveFirst⟩
      · rcases newest_split newestSecond with ⟨rfl, _⟩ | ⟨insideSecond, aboveSecond⟩
        · rfl
        · exact absurd (aboveSecond newestFirst.named)
            (not_lt_of_ge (boundFirst second insideSecond.mem insideSecond.named))
      · rcases newest_split newestSecond with ⟨rfl, boundSecond⟩ | ⟨insideSecond, _⟩
        · exact absurd (aboveFirst newestSecond.named)
            (not_lt_of_ge (boundSecond first insideFirst.mem insideFirst.named))
        · exact inductionHypothesis insideFirst insideSecond

/-- The map holds exactly the newest records. -/
theorem latestByCriterion_eq_some {evidence : List Evidence} {criterion : JsString}
    {e : Evidence} :
    latestByCriterion evidence criterion = some e ↔ Newest criterion evidence e := by
  constructor
  · exact newest_of_latestByCriterion
  · intro newest
    cases entry : latestByCriterion evidence criterion with
    | none => exact absurd newest.named (latestByCriterion_eq_none.mp entry e newest.mem)
    | some current => rw [(newest_of_latestByCriterion entry).unique newest]

/-- With distinct timestamps the newest record is the one with the greatest
timestamp, wherever it stands. -/
theorem newest_iff_of_distinct {criterion : JsString} {evidence : List Evidence} {e : Evidence}
    (distinct : (evidence.map (·.timestamp)).Nodup) :
    Newest criterion evidence e ↔
      e ∈ evidence ∧ e.criterionId = some criterion ∧
        ∀ other ∈ evidence, other.criterionId = some criterion →
          other.timestamp ≤ e.timestamp := by
  constructor
  · intro newest
    exact ⟨newest.mem, newest.named, newest.bound⟩
  · rintro ⟨member, named, bound⟩
    obtain ⟨before, after, rfl⟩ := List.append_of_mem member
    refine ⟨before, after, rfl, named, fun other found => bound other (by simp [found]), ?_⟩
    intro other found otherNamed
    have different : e.timestamp ≠ other.timestamp := by
      simp only [List.map_append, List.map_cons, List.nodup_append, List.nodup_cons] at distinct
      intro same
      exact distinct.2.1.1 (same ▸ List.mem_map.mpr ⟨other, found, rfl⟩)
    exact lt_of_le_of_ne (bound other (by simp [found]) otherNamed) (Ne.symm different)

theorem latestByCriterion_perm {evidence reordered : List Evidence}
    (permutation : reordered.Perm evidence)
    (distinct : (evidence.map (·.timestamp)).Nodup) :
    latestByCriterion reordered = latestByCriterion evidence := by
  have distinctReordered : (reordered.map (·.timestamp)).Nodup :=
    (permutation.map _).nodup_iff.mpr distinct
  funext criterion
  apply Option.ext
  intro e
  rw [latestByCriterion_eq_some, latestByCriterion_eq_some,
    newest_iff_of_distinct distinctReordered, newest_iff_of_distinct distinct]
  simp only [permutation.mem_iff]

/-! ## Verdicts on single criteria -/

/-- The newest record of a criterion about the result tree. -/
def NewestGreen (property : DesiredProperty) (evidence : List Evidence)
    (criterion : JsString) (e : Evidence) : Prop :=
  Newest criterion ((relevantEvidence property evidence).filter fun e => !e.red) e

/-- The newest record of a criterion about the base revision. -/
def NewestRed (property : DesiredProperty) (evidence : List Evidence)
    (criterion : JsString) (e : Evidence) : Prop :=
  Newest criterion ((relevantEvidence property evidence).filter fun e => e.red) e

/-- A red record that earns a criterion its flip. -/
def EarnsFlip (options : EvaluationOptions) (criterion : JsString) (red : Evidence) : Prop :=
  (red.outcome = .contradicts ∧ isEligibleRed red.outcome red.payload = true) ∨
    (red.outcome = .supports ∧ (options.inheritedFlips criterion).isSome = true)

theorem greenVerdict_status (criterion : AcceptanceCriterion) (latest : Option Evidence) :
    (greenVerdict criterion latest).status =
      match latest with
      | none => .unevaluated
      | some e =>
          match e.outcome with
          | .supports => .pass
          | .contradicts => .fail
          | .inconclusive => .indeterminate := by
  cases latest with
  | none => rfl
  | some e => cases outcome : e.outcome <;> simp [greenVerdict, outcome]

theorem greenVerdict_criterionId (criterion : AcceptanceCriterion) (latest : Option Evidence) :
    (greenVerdict criterion latest).criterionId = criterion.id := by
  cases latest with
  | none => rfl
  | some e => cases outcome : e.outcome <;> simp [greenVerdict, outcome]

theorem supports_of_greenVerdict_pass {criterion : AcceptanceCriterion}
    {latest : Option Evidence} (passes : (greenVerdict criterion latest).status = .pass) :
    ∃ e, latest = some e ∧ e.outcome = .supports := by
  rw [greenVerdict_status] at passes
  cases latest with
  | none => cases passes
  | some e =>
      refine ⟨e, rfl, ?_⟩
      cases outcome : e.outcome <;> simp_all

/-- The red-phase rule keeps a pass only for a red record that earns the flip. -/
theorem redVerdict_pass {options : EvaluationOptions} {verdict : CriterionVerdict}
    {red : Option Evidence}
    (passes : (redVerdict options.inheritedFlips verdict red).status = .pass) :
    ∃ record, red = some record ∧ EarnsFlip options verdict.criterionId record := by
  cases red with
  | none => simp [redVerdict] at passes
  | some record =>
      refine ⟨record, rfl, ?_⟩
      simp only [redVerdict] at passes
      cases outcome : record.outcome with
      | supports =>
          cases inherited : options.inheritedFlips verdict.criterionId with
          | none => simp [outcome, inherited] at passes
          | some priorRun => exact Or.inr ⟨outcome, by rw [inherited]; rfl⟩
      | contradicts =>
          by_cases eligible : isEligibleRed record.outcome record.payload = true
          · exact Or.inl ⟨outcome, eligible⟩
          · rw [outcome] at eligible
            simp [outcome, eligible] at passes
      | inconclusive => simp [outcome] at passes

/-- What a passing criterion says about the two maps. -/
theorem criterionVerdict_pass {options : EvaluationOptions}
    {latest latestRed : JsString → Option Evidence} {criterion : AcceptanceCriterion}
    (passes : (criterionVerdict options latest latestRed criterion).status = .pass) :
    (∃ e, latest criterion.id = some e ∧ e.outcome = .supports) ∧
      (options.requireRedPhase = true → isDiscriminating criterion = true →
        ∃ red, latestRed criterion.id = some red ∧ EarnsFlip options criterion.id red) := by
  simp only [criterionVerdict] at passes
  split at passes
  · next gated =>
      simp only [Bool.and_eq_true, beq_iff_eq] at gated
      obtain ⟨red, entry, earns⟩ := redVerdict_pass passes
      rw [greenVerdict_criterionId] at earns
      exact ⟨supports_of_greenVerdict_pass gated.2, fun _ _ => ⟨red, entry, earns⟩⟩
  · next ungated =>
      refine ⟨supports_of_greenVerdict_pass passes, fun required discriminating => ?_⟩
      simp [required, discriminating, passes] at ungated

theorem criterionVerdict_fail {options : EvaluationOptions}
    {latest latestRed : JsString → Option Evidence} {criterion : AcceptanceCriterion}
    {e : Evidence} (entry : latest criterion.id = some e) (contradicts : e.outcome = .contradicts) :
    (criterionVerdict options latest latestRed criterion).status = .fail := by
  have failed : (greenVerdict criterion (latest criterion.id)).status = .fail := by
    rw [greenVerdict_status, entry]
    simp [contradicts]
  simp [criterionVerdict, failed]

/-! ## The conclusion from the verdicts -/

theorem concludeProperty_unsatisfied {property : DesiredProperty} {options : EvaluationOptions}
    {used : List JsString} {verdicts : List CriterionVerdict} {verdict : CriterionVerdict}
    (member : verdict ∈ verdicts) (failed : verdict.status = .fail) :
    (concludeProperty property options used verdicts).status = .unsatisfied := by
  unfold concludeProperty
  cases found : verdicts.find? fun v => v.status == .fail with
  | some _ => rfl
  | none =>
      have passed := List.find?_eq_none.mp found verdict member
      simp [failed] at passed

theorem concludeProperty_satisfied {property : DesiredProperty} {options : EvaluationOptions}
    {used : List JsString} {verdicts : List CriterionVerdict}
    (satisfied : (concludeProperty property options used verdicts).status = .satisfied) :
    ∀ verdict ∈ verdicts, verdict.status = .pass := by
  intro verdict member
  unfold concludeProperty at satisfied
  split at satisfied
  · cases satisfied
  · next noFail =>
      split at satisfied
      · cases satisfied
      · next noOpen =>
          split at satisfied
          · simp only at satisfied
            split at satisfied <;> cases satisfied
          · next noMissing =>
              have notFail := List.find?_eq_none.mp noFail verdict member
              have notOpen := List.find?_eq_none.mp noOpen verdict member
              have notMissing := List.find?_eq_none.mp noMissing verdict member
              cases status : verdict.status <;> simp_all

theorem concludeProperty_not_waived (property : DesiredProperty) (options : EvaluationOptions)
    (used : List JsString) (verdicts : List CriterionVerdict) :
    (concludeProperty property options used verdicts).status ≠ .waived := by
  unfold concludeProperty
  split
  · simp
  · split
    · simp
    · split
      · simp only
        split <;> simp
      · simp only
        split <;> simp

/-! ## The evaluator -/

/-- The maps `evaluateProperty` reads, for both phases. -/
def latestGreen (property : DesiredProperty) (evidence : List Evidence) :
    JsString → Option Evidence :=
  latestByCriterion ((relevantEvidence property evidence).filter fun e => !e.red)

def latestBase (property : DesiredProperty) (evidence : List Evidence)
    (options : EvaluationOptions) : JsString → Option Evidence :=
  if options.requireRedPhase then
    latestByCriterion ((relevantEvidence property evidence).filter fun e => e.red)
  else
    fun _ => none

theorem exists_waiver_iff (property : DesiredProperty) (evidence : List Evidence) :
    (∃ e ∈ relevantEvidence property evidence, isWaiver e = true) ↔
      ∃ e ∈ evidence, property.id ∈ e.propertyRefs ∧ e.kind = .human ∧
        (e.payload.property (js "waive")).isTrue = true := by
  simp [relevantEvidence, isWaiver, and_assoc]

theorem evaluateProperty_of_waiver {property : DesiredProperty} {evidence : List Evidence}
    (options : EvaluationOptions)
    (waived : ∃ e ∈ relevantEvidence property evidence, isWaiver e = true) :
    (evaluateProperty property evidence options).status = .waived := by
  obtain ⟨e, member, isWaived⟩ := waived
  unfold evaluateProperty
  cases found : (relevantEvidence property evidence).find? isWaiver with
  | some _ => simp [found]
  | none => exact absurd isWaived (List.find?_eq_none.mp found e member)

/-- Without a waiver the verdicts decide. -/
theorem evaluateProperty_of_no_waiver {property : DesiredProperty} {evidence : List Evidence}
    (options : EvaluationOptions)
    (unwaived : ¬ ∃ e ∈ relevantEvidence property evidence, isWaiver e = true) :
    evaluateProperty property evidence options =
      concludeProperty property options
        (property.acceptance.filterMap fun criterion =>
          (latestGreen property evidence criterion.id).map (·.id))
        (property.acceptance.map
          (criterionVerdict options (latestGreen property evidence)
            (latestBase property evidence options))) := by
  have noWaiver : (relevantEvidence property evidence).find? isWaiver = none := by
    rw [List.find?_eq_none]
    intro e member isWaived
    exact unwaived ⟨e, member, isWaived⟩
  unfold evaluateProperty
  simp only [noWaiver]
  rfl

theorem evaluateProperty_waived_iff (property : DesiredProperty) (evidence : List Evidence)
    (options : EvaluationOptions) :
    (evaluateProperty property evidence options).status = .waived ↔
      ∃ e ∈ relevantEvidence property evidence, isWaiver e = true := by
  constructor
  · intro waived
    by_contra unwaived
    rw [evaluateProperty_of_no_waiver options unwaived] at waived
    exact concludeProperty_not_waived _ _ _ _ waived
  · exact evaluateProperty_of_waiver options

theorem evaluateProperty_satisfied {property : DesiredProperty} {evidence : List Evidence}
    {options : EvaluationOptions}
    (satisfied : (evaluateProperty property evidence options).status = .satisfied)
    {criterion : AcceptanceCriterion} (member : criterion ∈ property.acceptance) :
    (∃ e, NewestGreen property evidence criterion.id e ∧ e.outcome = .supports) ∧
      (options.requireRedPhase = true → isDiscriminating criterion = true →
        ∃ red, NewestRed property evidence criterion.id red ∧
          EarnsFlip options criterion.id red) := by
  have unwaived : ¬ ∃ e ∈ relevantEvidence property evidence, isWaiver e = true := by
    intro waived
    rw [evaluateProperty_of_waiver options waived] at satisfied
    cases satisfied
  rw [evaluateProperty_of_no_waiver options unwaived] at satisfied
  have passes := concludeProperty_satisfied satisfied _ (List.mem_map.mpr ⟨criterion, member, rfl⟩)
  obtain ⟨⟨e, entry, supports⟩, flip⟩ := criterionVerdict_pass passes
  refine ⟨⟨e, latestByCriterion_eq_some.mp entry, supports⟩, ?_⟩
  intro required discriminating
  obtain ⟨red, redEntry, earns⟩ := flip required discriminating
  rw [latestBase, if_pos required] at redEntry
  exact ⟨red, latestByCriterion_eq_some.mp redEntry, earns⟩

theorem evaluateProperty_contradicted {property : DesiredProperty} {evidence : List Evidence}
    (options : EvaluationOptions)
    (unwaived : ¬ ∃ e ∈ relevantEvidence property evidence, isWaiver e = true)
    {criterion : AcceptanceCriterion} (member : criterion ∈ property.acceptance)
    {e : Evidence} (newest : NewestGreen property evidence criterion.id e)
    (contradicts : e.outcome = .contradicts) :
    (evaluateProperty property evidence options).status = .unsatisfied := by
  rw [evaluateProperty_of_no_waiver options unwaived]
  exact concludeProperty_unsatisfied (List.mem_map.mpr ⟨criterion, member, rfl⟩)
    (criterionVerdict_fail (latestByCriterion_eq_some.mpr newest) contradicts)

theorem relevantEvidence_perm (property : DesiredProperty) {evidence reordered : List Evidence}
    (permutation : reordered.Perm evidence) :
    (relevantEvidence property reordered).Perm (relevantEvidence property evidence) :=
  permutation.filter _

private theorem distinct_filter {evidence : List Evidence} (keep : Evidence → Bool)
    (distinct : (evidence.map (·.timestamp)).Nodup) :
    ((evidence.filter keep).map (·.timestamp)).Nodup :=
  distinct.sublist (List.filter_sublist.map _)

theorem evaluateProperty_perm {property : DesiredProperty} {evidence reordered : List Evidence}
    (options : EvaluationOptions) (permutation : reordered.Perm evidence)
    (distinct : (evidence.map (·.timestamp)).Nodup) :
    (evaluateProperty property reordered options).status =
      (evaluateProperty property evidence options).status := by
  have relevant := relevantEvidence_perm property permutation
  have distinctRelevant : ((relevantEvidence property evidence).map (·.timestamp)).Nodup :=
    distinct_filter _ distinct
  by_cases waived : ∃ e ∈ relevantEvidence property evidence, isWaiver e = true
  · have waivedReordered : ∃ e ∈ relevantEvidence property reordered, isWaiver e = true := by
      obtain ⟨e, member, isWaived⟩ := waived
      exact ⟨e, relevant.mem_iff.mpr member, isWaived⟩
    rw [evaluateProperty_of_waiver options waived,
      evaluateProperty_of_waiver options waivedReordered]
  · have unwaivedReordered : ¬ ∃ e ∈ relevantEvidence property reordered, isWaiver e = true := by
      rintro ⟨e, member, isWaived⟩
      exact waived ⟨e, relevant.mem_iff.mp member, isWaived⟩
    have green : latestGreen property reordered = latestGreen property evidence :=
      latestByCriterion_perm (relevant.filter _) (distinct_filter _ distinctRelevant)
    have base : latestBase property reordered options = latestBase property evidence options := by
      unfold latestBase
      split
      · exact latestByCriterion_perm (relevant.filter _) (distinct_filter _ distinctRelevant)
      · rfl
    rw [evaluateProperty_of_no_waiver options waived,
      evaluateProperty_of_no_waiver options unwaivedReordered, green, base]

/-- The four guarantees of the evaluator, for every property, evidence list and
option set: satisfaction rests on newest supporting evidence and, under the red
phase, on an earned flip; a newest contradiction makes the property unsatisfied
unless it is waived; it is waived exactly by a human record with the waive mark;
and with distinct timestamps the order of the list does not matter. -/
theorem evaluateProperty_sound (property : DesiredProperty) (evidence : List Evidence)
    (options : EvaluationOptions) :
    ((evaluateProperty property evidence options).status = .satisfied →
      ∀ criterion ∈ property.acceptance,
        (∃ e, NewestGreen property evidence criterion.id e ∧ e.outcome = .supports) ∧
          (options.requireRedPhase = true → isDiscriminating criterion = true →
            ∃ red, NewestRed property evidence criterion.id red ∧
              EarnsFlip options criterion.id red)) ∧
      ((¬ ∃ e ∈ evidence, property.id ∈ e.propertyRefs ∧ e.kind = .human ∧
          (e.payload.property (js "waive")).isTrue = true) →
        (∃ criterion ∈ property.acceptance, ∃ e,
          NewestGreen property evidence criterion.id e ∧ e.outcome = .contradicts) →
        (evaluateProperty property evidence options).status = .unsatisfied) ∧
      ((evaluateProperty property evidence options).status = .waived ↔
        ∃ e ∈ evidence, property.id ∈ e.propertyRefs ∧ e.kind = .human ∧
          (e.payload.property (js "waive")).isTrue = true) ∧
      ((evidence.map (·.timestamp)).Nodup →
        ∀ reordered : List Evidence, reordered.Perm evidence →
          (evaluateProperty property reordered options).status =
            (evaluateProperty property evidence options).status) := by
  refine ⟨fun satisfied criterion member => evaluateProperty_satisfied satisfied member,
    ?_, ?_, fun distinct reordered permutation =>
      evaluateProperty_perm options permutation distinct⟩
  · rintro unwaived ⟨criterion, member, e, newest, contradicts⟩
    rw [← exists_waiver_iff] at unwaived
    exact evaluateProperty_contradicted options unwaived member newest contradicts
  · rw [evaluateProperty_waived_iff, exists_waiver_iff]

end SpecAsCode.Verifier
