import SpecAsCode.Js.Parse

/-!
# Structured output

The JSON document in the text of a model, validated against a schema.
-/

namespace SpecAsCode.Llm

open SpecAsCode.Js

/-- What a schema finds wrong at a path. -/
structure Issue where
  path : JsString
  message : JsString
  deriving DecidableEq

/-- `schema.safeParse(data)`. -/
abbrev Schema (Value : Type) := JsValue → Except (List Issue) Value

/-- The code of an `LLMError`. -/
inductive LLMCode where
  | timeout
  | providerFailure
  | invalidStructuredOutput
  | emptyCompletion
  | truncatedOutput
  | streamAborted
  deriving DecidableEq

/-- What a request for structured output throws, with what the message names. -/
inductive LLMError where
  /-- No chunk came in time. -/
  | stalled (chunks : Nat) (lastEvent : JsString)
  /-- The stream reported an error. -/
  | streamError (message type : JsValue)
  /-- The stream ended or broke before the message was complete. -/
  | streamAborted (chunks bytes : Nat) (lastEvent : JsString)
  | emptyCompletion (stopReason outputTokens : JsValue)
  | truncatedOutput (outputTokens : JsValue)
  | unparseable (excerpt : JsString)
  | invalid (issues : List Issue)
  /-- A `TypeError` of the language: the answer is not shaped as its type says. -/
  | typeError

/-- `error.code`; a `TypeError` has none. -/
def LLMError.code : LLMError → Option LLMCode
  | .stalled _ _ => some .timeout
  | .streamError _ _ => some .providerFailure
  | .streamAborted _ _ _ => some .streamAborted
  | .emptyCompletion _ _ => some .emptyCompletion
  | .truncatedOutput _ => some .truncatedOutput
  | .unparseable _ => some .invalidStructuredOutput
  | .invalid _ => some .invalidStructuredOutput
  | .typeError => none

/-- The mark of a code fence. -/
def fence : JsString :=
  js "```"

/-- The text before the first fence and the text after it. -/
def splitAtFence : JsString → Option (JsString × JsString)
  | [] => none
  | first :: rest =>
      if fence.isPrefixOf (first :: rest) then
        some ([], (first :: rest).drop fence.length)
      else
        (splitAtFence rest).map fun parts => (first :: parts.1, parts.2)

/-- What the first code fence holds, after the name of its language. -/
def fenced (raw : JsString) : Option JsString :=
  (splitAtFence raw).bind fun parts =>
    let body := if (js "json").isPrefixOf parts.2 then parts.2.drop 4 else parts.2
    (splitAtFence (body.dropWhile isSpace)).map Prod.fst

/-- `raw.lastIndexOf(code)`, when it is there. -/
def lastIndexOf (code : CodeUnit) (raw : JsString) : Option Nat :=
  (raw.reverse.idxOf? code).map fun index => raw.length - 1 - index

/-- What stands between the first opening and the last closing bracket. -/
def bracketed (raw : JsString) : Option JsString :=
  let start := [raw.idxOf? (unit '{'), raw.idxOf? (unit '[')].reduceOption.min?
  let last := [lastIndexOf (unit '}') raw, lastIndexOf (unit ']') raw].reduceOption.max?
  match start, last with
  | some start, some last =>
      if start < last then some ((raw.take (last + 1)).drop start) else none
  | _, _ => none

def extractJson (raw : JsString) : Except LLMError JsValue :=
  let attempts :=
    [parseJson (trim raw),
      (fenced raw).bind fun body => if body = [] then none else parseJson (trim body),
      (bracketed raw).bind parseJson]
  match attempts.reduceOption.head? with
  | some value => .ok value
  | none => .error (.unparseable (raw.take 500))

def parseStructured {Value : Type} (schema : Schema Value) (raw : JsString) :
    Except LLMError Value :=
  (extractJson raw).bind fun data =>
    match schema data with
    | .ok value => .ok value
    | .error issues => .error (.invalid (issues.take 8))

end SpecAsCode.Llm
