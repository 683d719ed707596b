import SpecAsCode.Executor.Commands
import SpecAsCode.Lib.Replacement
import SpecAsCode.Text.Utf8

/-!
# Recorded output

What a command writes is collected piece by piece, cut to a number of octets, and the values
of secret variables are replaced in it.  The same steps are taken with every code unit marked
with the octet of the output that it comes from, which says what is left of the output in
the text that is recorded.
-/

namespace SpecAsCode.Executor

open SpecAsCode.Js SpecAsCode.Text
open SpecAsCode.Verifier (CommandRunResult lowerAscii)
open SpecAsCode.Replacement (pieces replaced engaged)

/-! ## Redaction -/

section Names

open Regex

/-- `SECRET_NAME`.  Matched without regard to case. -/
def SECRET_NAME : Regex :=
  any [literal (js "secret"), literal (js "token"), literal (js "password"),
    literal (js "passwd"), all [literal (js "api"), optional (literal (js "_")),
    literal (js "key")], literal (js "credential"), literal (js "private_key")]

end Names

/-- The entries of an environment, in the order of `Object.entries`. -/
abbrev ProcessEnv := List (JsString × Option JsString)

/-- The value that is redacted for an entry. -/
def secretValue (entry : JsString × Option JsString) : Option JsString :=
  match entry with
  | (_, none) => none
  | (name, some value) =>
      if value = [] || value.length < 8 || !SECRET_NAME.test (name.map lowerAscii) then none
      else some value

/-- `<redacted:${name}>`. -/
def redactionMark (name : JsString) : JsString :=
  js "<redacted:" ++ name ++ js ">"

/-- `text.split(separator)`, for a separator that is not empty. -/
def splitText (text separator : JsString) : List JsString :=
  pieces id separator 0 text

/-- One round of the loop. -/
def redactEntry (out : JsString) (entry : JsString × Option JsString) : JsString :=
  match secretValue entry with
  | none => out
  | some value => (redactionMark entry.1).intercalate (splitText out value)

def redactSecrets (text : JsString) (env : ProcessEnv) : JsString :=
  env.foldl redactEntry text

example : redactSecrets (js "x abcdefgh") [(js "MY_TOKEN", some (js "abcdefgh"))] =
    js "x <redacted:MY_TOKEN>" := by decide +kernel

/-! ## Collection -/

/-- `truncate`. -/
def truncateOutput (text : JsString) (maxBytes : Nat) : JsString :=
  decodeUtf8 ((encodeUtf8 text).take maxBytes)

/-- The pieces that come in, each read as a text of its own, until the limit is reached. -/
def collectOutput (cap : Nat) (text : JsString) : List (List Octet) → JsString
  | [] => text
  | chunk :: rest =>
      collectOutput cap (if text.length < cap then text ++ decodeUtf8 chunk else text) rest

/-- What is recorded of an output. -/
def recordedOutput (env : ProcessEnv) (maxOutputBytes : Nat) (chunks : List (List Octet)) :
    JsString :=
  redactSecrets (truncateOutput (collectOutput (maxOutputBytes * 8) [] chunks) maxOutputBytes) env

/-- How the shell ends. -/
inductive ChildEvent where
  | exit (code : Option JsNumber) (signal : Option JsString)
  | error (message : JsString)

/-- What the handlers of `exit` and `error` resolve with. -/
def settled (digestOf : JsString → JsString) (env : ProcessEnv) (maxOutputBytes : Nat)
    (stdout stderr : List (List Octet)) (durationMs : JsNumber) (timedOut : Bool) :
    ChildEvent → Spawned
  | .exit code signal =>
      { started := true
        exitCode := code
        signal := signal
        stdout := recordedOutput env maxOutputBytes stdout
        stderr := recordedOutput env maxOutputBytes stderr
        stdoutDigest := digestOf (collectOutput (maxOutputBytes * 8) [] stdout)
        stderrDigest := digestOf (collectOutput (maxOutputBytes * 8) [] stderr)
        durationMs := durationMs
        timedOut := timedOut }
  | .error message =>
      { started := false
        exitCode := none
        signal := none
        stdout := recordedOutput env maxOutputBytes stdout
        stderr := redactSecrets message env
        stdoutDigest := digestOf (collectOutput (maxOutputBytes * 8) [] stdout)
        stderrDigest := digestOf message
        durationMs := durationMs
        timedOut := timedOut }

/-! ## Where the units come from -/

/-- A text whose units are marked with the octet of the output they come from. -/
abbrev Traced := List (CodeUnit × Option Nat)

/-- The units that an octet completes.  What stands for a sequence that the octet breaks
off comes from the octets before. -/
def tracedStep (index : Nat) (decoder : Decoder) (code : Octet) : Traced :=
  match decoder with
  | .start => (firstOctet code).1.map (·, some index)
  | .pending _ low high _ =>
      if low ≤ code.val ∧ code.val ≤ high then
        (decodeStep decoder code).1.map (·, some index)
      else
        (replacement, some (index - 1)) :: (firstOctet code).1.map (·, some index)

/-- `decodeFrom`, for octets from a number on. -/
def tracedFrom (index : Nat) (decoder : Decoder) : List Octet → Traced
  | [] => decoder.flush.map (·, some (index - 1))
  | code :: rest =>
      tracedStep index decoder code ++ tracedFrom (index + 1) (decodeStep decoder code).2 rest

/-- `collectOutput`, for pieces from an octet on. -/
def collectTraced (cap index : Nat) (trace : Traced) : List (List Octet) → Traced
  | [] => trace
  | chunk :: rest =>
      collectTraced cap (index + chunk.length)
        (if trace.length < cap then trace ++ tracedFrom index .start chunk else trace) rest

/-- A text with the marks of another one, as far as the two agree. -/
def alongside : Traced → JsString → Traced
  | _, [] => []
  | [], code :: rest => (code :: rest).map (·, none)
  | (other, mark) :: trace, code :: rest =>
      if code = other then (code, mark) :: alongside trace rest
      else (code :: rest).map (·, none)

def truncateTraced (trace : Traced) (maxBytes : Nat) : Traced :=
  alongside trace (truncateOutput (trace.map Prod.fst) maxBytes)

def redactTraced (trace : Traced) (entry : JsString × Option JsString) : Traced :=
  match secretValue entry with
  | none => trace
  | some value => replaced Prod.fst value ((redactionMark entry.1).map (·, none)) 0 trace

/-- The text before the redaction. -/
def cutTrace (maxOutputBytes : Nat) (chunks : List (List Octet)) : Traced :=
  truncateTraced (collectTraced (maxOutputBytes * 8) 0 [] chunks) maxOutputBytes

def recordedTrace (env : ProcessEnv) (maxOutputBytes : Nat) (chunks : List (List Octet)) : Traced :=
  env.foldl redactTraced (cutTrace maxOutputBytes chunks)

/-! ### The marks change nothing -/

theorem map_fst_marked (text : JsString) (mark : Option Nat) :
    (text.map (·, mark)).map Prod.fst = text := by
  rw [List.map_map]
  exact List.map_id text

theorem units_tracedStep (index : Nat) (decoder : Decoder) (code : Octet) :
    (tracedStep index decoder code).map Prod.fst = (decodeStep decoder code).1 := by
  cases decoder with
  | start => exact map_fst_marked _ _
  | pending missing low high point =>
      rw [tracedStep]
      split_ifs with continues
      · exact map_fst_marked _ _
      · rw [List.map_cons, map_fst_marked, decodeStep, if_neg continues]

theorem units_tracedFrom (octets : List Octet) (index : Nat) (decoder : Decoder) :
    (tracedFrom index decoder octets).map Prod.fst = decodeFrom decoder octets := by
  induction octets generalizing index decoder with
  | nil => exact map_fst_marked _ _
  | cons code rest inductionHypothesis =>
      rw [tracedFrom, List.map_append, units_tracedStep, inductionHypothesis, decodeFrom]

theorem units_collectTraced (cap : Nat) (chunks : List (List Octet)) (index : Nat) (trace : Traced) :
    (collectTraced cap index trace chunks).map Prod.fst =
      collectOutput cap (trace.map Prod.fst) chunks := by
  induction chunks generalizing index trace with
  | nil => rfl
  | cons chunk rest inductionHypothesis =>
      rw [collectTraced, inductionHypothesis, collectOutput, List.length_map]
      congr 1
      split_ifs with more
      · rw [List.map_append, units_tracedFrom, decodeUtf8]
      · rfl

theorem units_alongside (trace : Traced) (text : JsString) :
    (alongside trace text).map Prod.fst = text := by
  fun_induction alongside trace text with
  | case1 trace => rfl
  | case2 code rest => exact map_fst_marked _ _
  | case3 other mark trace rest inductionHypothesis => rw [List.map_cons, inductionHypothesis]
  | case4 other mark trace code rest different => exact map_fst_marked _ _

theorem units_redactTraced (trace : Traced) (entry : JsString × Option JsString) :
    (redactTraced trace entry).map Prod.fst = redactEntry (trace.map Prod.fst) entry := by
  rw [redactTraced, redactEntry]
  cases secretValue entry with
  | none => rfl
  | some value =>
      simp only [splitText]
      rw [Replacement.intercalate_pieces,
        Replacement.map_replaced Prod.fst value _ Prod.fst id (fun _ => rfl), map_fst_marked]

theorem units_recordedTrace (env : ProcessEnv) (maxOutputBytes : Nat) (chunks : List (List Octet)) :
    (recordedTrace env maxOutputBytes chunks).map Prod.fst =
      recordedOutput env maxOutputBytes chunks := by
  have turns : ∀ trace : Traced, (env.foldl redactTraced trace).map Prod.fst =
      redactSecrets (trace.map Prod.fst) env := by
    induction env with
    | nil => exact fun trace => rfl
    | cons entry rest inductionHypothesis =>
        intro trace
        rw [List.foldl_cons, inductionHypothesis, units_redactTraced, redactSecrets, redactSecrets,
          List.foldl_cons]
  rw [recordedTrace, turns, cutTrace, truncateTraced, units_alongside, units_collectTraced]
  rfl

/-- An allowed command that is spawned has the recorded outputs in its result. -/
theorem runCommand_settled (digestOf : JsString → JsString) (command cwd : JsString)
    (config : CommandsConfig) (env : ProcessEnv) (maxOutputBytes : Nat)
    (stdout stderr : List (List Octet)) (durationMs : JsNumber) (timedOut : Bool)
    (code : Option JsNumber) (signal : Option JsString)
    (allowed : (evaluateCommandPolicy command config).allowed = true) :
    let result := runCommand digestOf command cwd config
      (settled digestOf env maxOutputBytes stdout stderr durationMs timedOut (.exit code signal))
    result.stdout = (recordedTrace env maxOutputBytes stdout).map Prod.fst ∧
      result.stderr = (recordedTrace env maxOutputBytes stderr).map Prod.fst := by
  intro result
  rw [units_recordedTrace, units_recordedTrace]
  simp only [result, runCommand, allowed, settled, if_true, and_self]

/-! ## What is left of a secret -/

/-- The octets of a value stand in the output from a number on. -/
def OccursAt (value : JsString) (octets : List Octet) (start : Nat) : Prop :=
  ∃ front behind, octets = front ++ encodeUtf8 value ++ behind ∧ front.length = start

/-- The unit comes from an occurrence of a value. -/
def ComesFrom (value : JsString) (start : Nat) (element : CodeUnit × Option Nat) : Prop :=
  ∃ index, element.2 = some index ∧ start ≤ index ∧ index < start + (encodeUtf8 value).length

/-- Nothing of a secret is left in what is recorded of an output. -/
def Redacted (env : ProcessEnv) (maxOutputBytes : Nat) (chunks : List (List Octet)) : Prop :=
  ∀ entry ∈ env, ∀ value, secretValue entry = some value →
    ∀ start, OccursAt value chunks.flatten start →
      ∀ element ∈ recordedTrace env maxOutputBytes chunks, ¬ ComesFrom value start element

/-- All that is left of an occurrence stands in one place and spells the value, and the
search for the value is not in the middle of a match when it arrives there. -/
def StandsFree (value : JsString) (start : Nat) (trace : Traced) : Prop :=
  ∃ front found behind, trace = front ++ (found ++ behind) ∧
    found.map Prod.fst = value ∧
    (∀ element ∈ front ++ behind, ¬ ComesFrom value start element) ∧
    engaged Prod.fst value 0 front (found ++ behind) = 0

/-- At the turn of a variable every occurrence of its value is gone or stands free. -/
def ClearTurn (octets : List Octet) (trace : Traced) (entry : JsString × Option JsString) : Prop :=
  ∀ value, secretValue entry = some value → ∀ start, OccursAt value octets start →
    (∀ element ∈ trace, ¬ ComesFrom value start element) ∨ StandsFree value start trace

def ClearTurns (octets : List Octet) : Traced → ProcessEnv → Prop
  | _, [] => True
  | trace, entry :: rest =>
      ClearTurn octets trace entry ∧ ClearTurns octets (redactTraced trace entry) rest

theorem secretValue_ne_nil {entry : JsString × Option JsString} {value : JsString}
    (secret : secretValue entry = some value) : value ≠ [] := by
  obtain ⟨name, none | text⟩ := entry
  · exact absurd secret nofun
  · rw [secretValue] at secret
    split_ifs at secret with skipped
    cases secret
    intro empty
    simp [empty] at skipped

theorem not_comesFrom_marker {value : JsString} {start : Nat} {text : JsString}
    {element : CodeUnit × Option Nat} (inMarker : element ∈ text.map (·, none)) :
    ¬ ComesFrom value start element := by
  obtain ⟨code, _, rfl⟩ := List.mem_map.mp inMarker
  rintro ⟨index, marked, _⟩
  exact absurd marked nofun

/-- A round brings nothing of an occurrence back. -/
theorem gone_redactTraced {value : JsString} {start : Nat} {trace : Traced}
    (entry : JsString × Option JsString) (gone : ∀ element ∈ trace, ¬ ComesFrom value start element) :
    ∀ element ∈ redactTraced trace entry, ¬ ComesFrom value start element := by
  intro element left
  rw [redactTraced] at left
  cases secret : secretValue entry with
  | none =>
      rw [secret] at left
      exact gone element left
  | some other =>
      rw [secret] at left
      rcases Replacement.mem_replaced left with inMarker | inTrace
      · exact not_comesFrom_marker inMarker
      · exact gone element inTrace

theorem gone_redactions {value : JsString} {start : Nat} (env : ProcessEnv) {trace : Traced}
    (gone : ∀ element ∈ trace, ¬ ComesFrom value start element) :
    ∀ element ∈ env.foldl redactTraced trace, ¬ ComesFrom value start element := by
  induction env generalizing trace with
  | nil => exact gone
  | cons entry rest inductionHypothesis =>
      exact inductionHypothesis (gone_redactTraced entry gone)

/-- The turn of a variable takes the occurrences of its value. -/
theorem gone_of_clearTurn {octets : List Octet} {trace : Traced}
    {entry : JsString × Option JsString} (clear : ClearTurn octets trace entry) {value : JsString}
    (secret : secretValue entry = some value) {start : Nat} (occurs : OccursAt value octets start) :
    ∀ element ∈ redactTraced trace entry, ¬ ComesFrom value start element := by
  rcases clear value secret start occurs with gone | ⟨front, found, behind, rfl, spelled, only, free⟩
  · exact gone_redactTraced entry gone
  · intro element left
    rw [redactTraced, secret] at left
    rcases Replacement.mem_around (secretValue_ne_nil secret) spelled free left with
      inMarker | inFront | inBehind
    · exact not_comesFrom_marker inMarker
    · exact only element (List.mem_append_left behind inFront)
    · exact only element (List.mem_append_right front inBehind)

/-- Where every occurrence of a secret that is not gone stands free at the turn of its
variable, nothing of a secret is recorded. -/
theorem redacted_of_clear (env : ProcessEnv) (maxOutputBytes : Nat) (chunks : List (List Octet))
    (clear : ClearTurns chunks.flatten (cutTrace maxOutputBytes chunks) env) :
    Redacted env maxOutputBytes chunks := by
  have turns : ∀ trace : Traced, ClearTurns chunks.flatten trace env →
      ∀ entry ∈ env, ∀ value, secretValue entry = some value →
        ∀ start, OccursAt value chunks.flatten start →
          ∀ element ∈ env.foldl redactTraced trace, ¬ ComesFrom value start element := by
    clear clear
    induction env with
    | nil => exact fun trace _ entry member => absurd member List.not_mem_nil
    | cons first rest inductionHypothesis =>
        intro trace clear entry member value secret start occurs
        rcases List.mem_cons.mp member with rfl | later
        · exact gone_redactions rest (gone_of_clearTurn clear.1 secret occurs)
        · exact inductionHypothesis _ clear.2 entry later value secret start occurs
  exact turns _ clear

theorem redacted_supersecret :
    Redacted [(js "API_TOKEN", some (js "supersecret"))] 64 [encodeUtf8 (js "supersecret")] := by
  refine redacted_of_clear _ _ _ ⟨?_, trivial⟩
  intro value secret start _
  have spelled : value = js "supersecret" := by
    have evaluated : secretValue (js "API_TOKEN", some (js "supersecret")) =
        some (js "supersecret") := by decide +kernel
    exact Option.some.inj (secret.symm.trans evaluated)
  refine Or.inr ⟨[], cutTrace 64 [encodeUtf8 (js "supersecret")], [], ?_, ?_, ?_, rfl⟩
  · rw [List.nil_append, List.append_nil]
  · rw [spelled]
    decide +kernel
  · exact fun element inside => absurd inside List.not_mem_nil

/-- The limit cuts a secret, and its beginning is recorded. -/
theorem not_redacted :
    ¬ ∀ (env : ProcessEnv) (maxOutputBytes : Nat) (chunks : List (List Octet)),
      Redacted env maxOutputBytes chunks := by
  intro complete
  have gone := complete [(js "API_TOKEN", some (js "supersecret"))] 8 [encodeUtf8 (js "supersecret")]
    (js "API_TOKEN", some (js "supersecret")) List.mem_cons_self (js "supersecret")
    (by decide +kernel) 0 ⟨[], [], by decide, rfl⟩ (unit 's', some 0) (by decide +kernel)
  exact gone ⟨0, rfl, by decide, by decide⟩

end SpecAsCode.Executor
