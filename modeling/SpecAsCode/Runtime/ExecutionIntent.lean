import SpecAsCode.Js.Indented
import SpecAsCode.Js.JsonObject

/-!
# The execution-intent record

The file `.spc/execution-intent.json`: the safety block of a workspace.  It is written
before any managed worker launches and holds the interruption cause, the coordinator, the
workers and what a recovery restores.
-/

namespace SpecAsCode.Runtime

open SpecAsCode.Js
open SpecAsCode.Text

inductive InterruptionCause where
  | none
  | cancelRequested
  | cancelEscalated
  deriving DecidableEq, Repr

/-- The cause as the record spells it. -/
def InterruptionCause.text : InterruptionCause → JsString
  | .none => js "NONE"
  | .cancelRequested => js "CANCEL_REQUESTED"
  | .cancelEscalated => js "CANCEL_ESCALATED"

/-- The cause that a value of the record spells. -/
def InterruptionCause.ofValue (value : JsValue) : Option InterruptionCause :=
  [InterruptionCause.none, .cancelRequested, .cancelEscalated].find? fun cause =>
    value.asString == some cause.text

/-- The number of a process. -/
abbrev ProcessId := Fin (2 ^ 32)

structure CoordinatorIdentity where
  pid : ProcessId
  processStartTime : JsString
  host : JsString
  deriving DecidableEq

structure WorkerIdentity extends CoordinatorIdentity where
  startedAt : JsString
  deriving DecidableEq

structure RestorationContext where
  originalBranch : JsString
  originalHead : JsString
  restorationTarget : JsString
  deriving DecidableEq

structure ExecutionIntent where
  cause : InterruptionCause
  coordinator : CoordinatorIdentity
  workers : List WorkerIdentity
  startedAt : JsString
  runId : JsString
  planId : JsString
  restoration : RestorationContext
  deriving DecidableEq

/-! ## Writing -/

def CoordinatorIdentity.fields (identity : CoordinatorIdentity) : List Field :=
  [(js "pid", some (.number (JsNumber.ofNat identity.pid.val))),
    (js "processStartTime", some (.text identity.processStartTime)),
    (js "host", some (.text identity.host))]

theorem CoordinatorIdentity.fields_ordered (identity : CoordinatorIdentity) :
    Ordered identity.fields := by
  simp only [Ordered, CoordinatorIdentity.fields, List.map]
  decide +kernel

def WorkerIdentity.fields (worker : WorkerIdentity) : List Field :=
  worker.toCoordinatorIdentity.fields ++ [(js "startedAt", some (.text worker.startedAt))]

theorem WorkerIdentity.fields_ordered (worker : WorkerIdentity) : Ordered worker.fields := by
  simp only [Ordered, WorkerIdentity.fields, CoordinatorIdentity.fields, List.cons_append,
    List.nil_append, List.map]
  decide +kernel

def RestorationContext.fields (restoration : RestorationContext) : List Field :=
  [(js "originalBranch", some (.text restoration.originalBranch)),
    (js "originalHead", some (.text restoration.originalHead)),
    (js "restorationTarget", some (.text restoration.restorationTarget))]

theorem RestorationContext.fields_ordered (restoration : RestorationContext) :
    Ordered restoration.fields := by
  simp only [Ordered, RestorationContext.fields, List.map]
  decide +kernel

def ExecutionIntent.fields (intent : ExecutionIntent) : List Field :=
  [(js "cause", some (.text intent.cause.text)),
    (js "coordinator", some (.object _ intent.coordinator.fields_ordered)),
    (js "workers", some (.array (intent.workers.map fun worker =>
      .object _ worker.fields_ordered))),
    (js "startedAt", some (.text intent.startedAt)), (js "runId", some (.text intent.runId)),
    (js "planId", some (.text intent.planId)),
    (js "restoration", some (.object _ intent.restoration.fields_ordered))]

theorem ExecutionIntent.fields_ordered (intent : ExecutionIntent) : Ordered intent.fields := by
  simp only [Ordered, ExecutionIntent.fields, List.map]
  decide +kernel

/-- The record as a value. -/
def ExecutionIntent.toJson (intent : ExecutionIntent) : Json :=
  .object intent.fields intent.fields_ordered

/-- What stands at the place of the record. -/
inductive IntentFile where
  | absent
  | unreadable
  | content (octets : List Octet)
  deriving DecidableEq

/-- `writeIntent`: `JSON.stringify(intent, null, 1)`, put in place by a rename. -/
def writeIntent (intent : ExecutionIntent) : IntentFile :=
  .content (encodeUtf8 (intent.toJson.1.spaced 1 0))

/-! ## Reading -/

/-- What a call throws: a `TypeError` of the language, or an error with a code. -/
inductive Thrown where
  | typeError
  | error (code message : JsString)
  deriving DecidableEq

inductive IntentFailure where
  | malformed
  | unreadable
  | unsafeCause
  | missingCause
  deriving DecidableEq, Repr

/-- `IntentRead`.  A record is returned as it was parsed. -/
inductive IntentRead where
  | intent (record : JsValue)
  | failure (reason : IntentFailure) (detail : JsString)

def noCauseDetail : JsString :=
  js ("execution-intent record has no cause field (intentional and accidental absence are " ++
    "indistinguishable — treated as unsafe)")

def unsafeCauseDetail (cause : JsString) : JsString :=
  js "execution-intent cause is \"" ++ cause ++ js "\" (unknown value — treated as unsafe)"

/-- `!value || typeof value !== "object"`, negated. -/
def isObject : JsValue → Bool
  | .array _ => true
  | .object _ => true
  | _ => false

/-- `typeof value === "number"`. -/
def isNumber : JsValue → Bool
  | .number _ => true
  | _ => false

/-- `Array.isArray(value)`. -/
def isArray : JsValue → Bool
  | .array _ => true
  | _ => false

/-- The checks of a record whose cause is known. -/
def checkRecord (parsed : JsValue) : IntentRead :=
  if !(isObject (parsed.property (js "coordinator")) &&
      isNumber ((parsed.property (js "coordinator")).property (js "pid"))) then
    .failure .malformed (js "execution-intent record has no valid coordinator identity")
  else if !isArray (parsed.property (js "workers")) then
    .failure .malformed (js "execution-intent record has no workers array")
  else if !isObject (parsed.property (js "restoration")) then
    .failure .malformed (js "execution-intent record has no restoration context")
  else
    .intent parsed

/-- The checks of a parsed record.  A value without properties cannot be read, and an
unknown cause is converted to a text before it is reported. -/
def readParsed (parsed : JsValue) : Except Thrown IntentRead :=
  let cause := parsed.property (js "cause")
  if parsed.isNullish then
    .error .typeError
  else if cause.isNullish then
    .ok (.failure .missingCause noCauseDetail)
  else if (InterruptionCause.ofValue cause).isNone then
    match cause.toText with
    | none => .error .typeError
    | some text => .ok (.failure .unsafeCause (unsafeCauseDetail text))
  else
    .ok (checkRecord parsed)

/-- `readIntentUnlocked`. -/
def readIntentUnlocked (file : IntentFile) : Except Thrown IntentRead :=
  match file with
  | .content octets =>
      match parseFile octets with
      | none =>
          .ok (.failure .malformed (js "execution-intent record is not valid JSON"))
      | some parsed => readParsed parsed
  | _ => .ok (.failure .unreadable (js "cannot read execution-intent record"))

/-- `readIntent`. -/
def readIntent (file : IntentFile) : Except Thrown IntentRead :=
  if file = .absent then
    .ok (.failure .unreadable (js "no execution-intent record"))
  else
    readIntentUnlocked file

/-! ## What is read -/

/-- A value that is accepted as a record. -/
structure IsExecutionIntent (value : JsValue) : Prop where
  cause : ∃ cause : InterruptionCause, value.property (js "cause") = .string cause.text
  coordinator : ∃ members pid, value.property (js "coordinator") = .object members ∧
    lookup (js "pid") members = .number pid
  workers : ∃ workers, value.property (js "workers") = .array workers
  restoration : (∃ items, value.property (js "restoration") = .array items) ∨
    ∃ members, value.property (js "restoration") = .object members

/-- A file with a record. -/
def IntentFile.Recorded (file : IntentFile) : Prop :=
  ∃ octets value, file = .content octets ∧ parseFile octets = some value ∧ IsExecutionIntent value

/-- A file with `null`, or with a cause that no text can be made of. -/
def IntentFile.Unprintable (file : IntentFile) : Prop :=
  ∃ octets value, file = .content octets ∧ parseFile octets = some value ∧
    (value.isNullish = true ∨ (value.property (js "cause")).converts = false)

theorem InterruptionCause.ofValue_text (cause : InterruptionCause) :
    InterruptionCause.ofValue (.string cause.text) = some cause := by
  cases cause <;> decide

theorem InterruptionCause.eq_text_of_ofValue {value : JsValue} {cause : InterruptionCause}
    (spelled : InterruptionCause.ofValue value = some cause) : value = .string cause.text := by
  have found := List.find?_some spelled
  rw [beq_iff_eq] at found
  cases value with
  | string text => exact congrArg JsValue.string (Option.some.inj found)
  | _ => cases found

theorem isObject_iff (value : JsValue) :
    isObject value = true ↔ (∃ items, value = .array items) ∨ ∃ members, value = .object members := by
  cases value <;> simp [isObject]

theorem isArray_iff (value : JsValue) : isArray value = true ↔ ∃ items, value = .array items := by
  cases value <;> simp [isArray]

theorem isNumber_iff (value : JsValue) : isNumber value = true ↔ ∃ number, value = .number number := by
  cases value <;> simp [isNumber]

/-- The coordinator is an object with a number at `pid`. -/
theorem hasCoordinator_iff (coordinator : JsValue) :
    (isObject coordinator && isNumber (coordinator.property (js "pid"))) = true ↔
      ∃ members pid, coordinator = .object members ∧ lookup (js "pid") members = .number pid := by
  cases coordinator with
  | object members => simp [isObject, isNumber_iff, JsValue.property]
  | _ => simp [isObject, isNumber, JsValue.property]

/-- A value with a known cause is accepted if its other parts are there. -/
theorem checkRecord_eq_intent_iff (parsed record : JsValue) :
    checkRecord parsed = .intent record ↔ record = parsed ∧
      (isObject (parsed.property (js "coordinator")) &&
        isNumber ((parsed.property (js "coordinator")).property (js "pid"))) = true ∧
      isArray (parsed.property (js "workers")) = true ∧
      isObject (parsed.property (js "restoration")) = true := by
  rw [checkRecord]
  cases isObject (parsed.property (js "coordinator")) &&
    isNumber ((parsed.property (js "coordinator")).property (js "pid"))
  · simp
  cases isArray (parsed.property (js "workers"))
  · simp
  cases isObject (parsed.property (js "restoration"))
  · simp
  · simp [eq_comm]

/-- A value is returned as a record if and only if it is one. -/
theorem readParsed_eq_intent_iff (parsed record : JsValue) :
    readParsed parsed = .ok (.intent record) ↔ record = parsed ∧ IsExecutionIntent parsed := by
  constructor
  · intro accepted
    rw [readParsed] at accepted
    split at accepted
    next => cases accepted
    next =>
      split at accepted
      next => cases accepted
      next =>
        split at accepted
        next => split at accepted <;> cases accepted
        next known =>
          obtain ⟨same, coordinator, workers, restoration⟩ :=
            (checkRecord_eq_intent_iff parsed record).mp (Except.ok.inj accepted)
          obtain ⟨cause, spelled⟩ := Option.ne_none_iff_exists'.mp (mt Option.isNone_iff_eq_none.mpr known)
          exact ⟨same, ⟨cause, InterruptionCause.eq_text_of_ofValue spelled⟩,
            (hasCoordinator_iff _).mp coordinator, (isArray_iff _).mp workers,
            (isObject_iff _).mp restoration⟩
  · rintro ⟨rfl, valid⟩
    obtain ⟨cause, spelled⟩ := valid.cause
    have checked := (checkRecord_eq_intent_iff record record).mpr ⟨rfl,
      (hasCoordinator_iff _).mpr valid.coordinator, (isArray_iff _).mpr valid.workers,
      (isObject_iff _).mpr valid.restoration⟩
    have defined : record.isNullish = false := by
      cases record <;> first | rfl | cases spelled
    rw [readParsed, defined, spelled, InterruptionCause.ofValue_text, checked]
    rfl

theorem toText_eq_none_iff (value : JsValue) : value.toText = none ↔ value.converts = false := by
  rw [JsValue.toText]
  cases value.converts <;> simp

/-- A value that cannot be converted is no nullish value and no cause. -/
theorem of_converts_false {value : JsValue} (stuck : value.converts = false) :
    value.isNullish = false ∧ InterruptionCause.ofValue value = none := by
  cases value with
  | array _ => exact ⟨rfl, rfl⟩
  | object _ => exact ⟨rfl, rfl⟩
  | _ => cases stuck

/-- Reading throws on a value without properties and on a cause that no text can be made
of. -/
theorem readParsed_throws_iff (parsed : JsValue) (thrown : Thrown) :
    readParsed parsed = .error thrown ↔ thrown = .typeError ∧
      (parsed.isNullish = true ∨ (parsed.property (js "cause")).converts = false) := by
  rw [readParsed]
  generalize parsed.property (js "cause") = cause
  cases parsed.isNullish with
  | true =>
      exact ⟨fun threw => ⟨(Except.error.inj threw).symm, Or.inl rfl⟩,
        fun throws => congrArg Except.error throws.1.symm⟩
  | false =>
      cases stuck : cause.converts with
      | false =>
          obtain ⟨defined, unknown⟩ := of_converts_false stuck
          show (if cause.isNullish = true then _ else _) = _ ↔ _
          rw [defined, unknown, (toText_eq_none_iff cause).mpr stuck]
          exact ⟨fun threw => ⟨(Except.error.inj threw).symm, Or.inr rfl⟩,
            fun throws => congrArg Except.error throws.1.symm⟩
      | true =>
          simp only [Bool.false_eq_true, if_false, JsValue.toText, stuck, if_true]
          split
          · simp
          · split <;> simp

/-! ## The file -/

theorem readIntent_content (octets : List Octet) :
    readIntent (.content octets) = readIntentUnlocked (.content octets) := rfl

/-- A record is read from a file if and only if it is recorded there. -/
theorem readIntent_eq_intent_iff (file : IntentFile) :
    (∃ record, readIntent file = .ok (.intent record)) ↔ file.Recorded := by
  constructor
  · rintro ⟨record, read⟩
    cases file with
    | absent => cases read
    | unreadable => cases read
    | content octets =>
        rw [readIntent_content, readIntentUnlocked] at read
        cases parsed : parseFile octets with
        | none =>
            rw [parsed] at read
            cases read
        | some value =>
            rw [parsed] at read
            exact ⟨octets, value, rfl, parsed, ((readParsed_eq_intent_iff value record).mp read).2⟩
  · rintro ⟨octets, value, rfl, parsed, valid⟩
    refine ⟨value, ?_⟩
    rw [readIntent_content, readIntentUnlocked, parsed]
    exact (readParsed_eq_intent_iff value value).mpr ⟨rfl, valid⟩

/-- `readIntent` throws if and only if the file holds a value that cannot be reported on. -/
theorem readIntent_throws_iff (file : IntentFile) (thrown : Thrown) :
    readIntent file = .error thrown ↔ thrown = .typeError ∧ file.Unprintable := by
  constructor
  · intro read
    cases file with
    | absent => cases read
    | unreadable => cases read
    | content octets =>
        rw [readIntent_content, readIntentUnlocked] at read
        cases parsed : parseFile octets with
        | none =>
            rw [parsed] at read
            cases read
        | some value =>
            rw [parsed] at read
            obtain ⟨same, stuck⟩ := (readParsed_throws_iff value thrown).mp read
            exact ⟨same, octets, value, rfl, parsed, stuck⟩
  · rintro ⟨same, octets, value, rfl, parsed, stuck⟩
    rw [readIntent_content, readIntentUnlocked, parsed]
    exact (readParsed_throws_iff value thrown).mpr ⟨same, stuck⟩

/-- A record that was written is a record. -/
theorem ExecutionIntent.isExecutionIntent (intent : ExecutionIntent) :
    IsExecutionIntent intent.toJson.1 where
  cause := ⟨intent.cause, rfl⟩
  coordinator := by
    obtain ⟨double, number, -⟩ := JsNumber.ofNat_eq
      (Nat.lt_trans intent.coordinator.pid.isLt (by decide : 2 ^ 32 < 2 ^ 53))
    refine ⟨fieldMembers intent.coordinator.fields, .finite double, rfl, ?_⟩
    show (Json.number (JsNumber.ofNat intent.coordinator.pid.val)).1 = _
    rw [number]
    rfl
  workers := ⟨_, rfl⟩
  restoration := Or.inr ⟨_, rfl⟩

/-- What was written is read back. -/
theorem readIntent_writeIntent (intent : ExecutionIntent) :
    readIntent (writeIntent intent) = .ok (.intent intent.toJson.1) := by
  have decoded : decodeUtf8 (encodeUtf8 (intent.toJson.1.spaced 1 0)) =
      intent.toJson.1.spaced 1 0 := by
    have read := decodeUtf8_encodeUtf8 _ (@wellFormed_spaced 1 intent.toJson.1 0) []
    simpa [decodeUtf8, decodeFrom, Decoder.flush] using read
  have parsed : parseFile (encodeUtf8 (intent.toJson.1.spaced 1 0)) = some intent.toJson.1 := by
    rw [parseFile, decoded, parseJson_spaced_end intent.toJson.2]
  rw [writeIntent, readIntent_content, readIntentUnlocked, parsed]
  exact (readParsed_eq_intent_iff _ _).mpr ⟨rfl, intent.isExecutionIntent⟩

end SpecAsCode.Runtime
