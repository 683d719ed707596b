import SpecAsCode.Js.OrderedMap
import SpecAsCode.Js.ToNumber
import SpecAsCode.Lib.Carryover
import SpecAsCode.Llm.Structured
import SpecAsCode.Text.TextDecoder

/-!
# The Anthropic wire

The two transports of `AnthropicCompatProvider`: one JSON body, or a stream of events.  A
response has passed `assertProviderHttp`.
-/

namespace SpecAsCode.Llm

open SpecAsCode.Js
open SpecAsCode.Text
open SpecAsCode.Lib

/-- The line feed. -/
def lineFeed : CodeUnit :=
  unit '\n'

/-- The token counts of a message, `undefined` where it has none. -/
structure TokenUsage where
  inputTokens : JsValue
  outputTokens : JsValue
  cacheReadTokens : JsValue
  cacheCreationTokens : JsValue

/-- The counts of a `usage` object. -/
def readUsage (usage : JsValue) : TokenUsage where
  inputTokens := usage.property (js "input_tokens")
  outputTokens := usage.property (js "output_tokens")
  cacheReadTokens := usage.property (js "cache_read_input_tokens")
  cacheCreationTokens := usage.property (js "cache_creation_input_tokens")

/-- What both transports take from a message. -/
structure Completion where
  text : JsString
  stopReason : JsValue
  usage : TokenUsage

/-- How both transports end. -/
def Completion.finish {Value : Type} (schema : Schema Value) (completion : Completion) :
    Except LLMError (Value × TokenUsage) :=
  if trim completion.text = [] then
    .error (.emptyCompletion completion.stopReason completion.usage.outputTokens)
  else if completion.stopReason.asString = some (js "max_tokens") then
    .error (.truncatedOutput completion.usage.outputTokens)
  else
    (parseStructured schema completion.text).map fun value => (value, completion.usage)

/-! ## One body -/

/-- `block.type === "text" && typeof block.text === "string"`. -/
def blockText (block : JsValue) : Option JsString :=
  if (block.property (js "type")).asString = some (js "text") then
    (block.property (js "text")).asString
  else
    none

/-- `(json?.content ?? [])`, filtered, mapped and joined; `null` has no properties. -/
def contentText (content : JsValue) : Except LLMError JsString :=
  match content.orElse (.array []) with
  | .array blocks =>
      if blocks.any JsValue.isNullish then
        .error .typeError
      else
        .ok ([lineFeed].intercalate (blocks.filterMap blockText))
  | _ => .error .typeError

/-- What `generateStructured` takes from the message it got. -/
def extractMessage (json : JsValue) : Except LLMError Completion :=
  (contentText (json.property (js "content"))).map fun text =>
    { text
      stopReason := json.property (js "stop_reason")
      usage := readUsage (json.property (js "usage")) }

/-- `generateStructured`: a body that is no JSON counts as `null`. -/
def generateStructured {Value : Type} (schema : Schema Value) (body : List Octet) :
    Except LLMError (Value × TokenUsage) :=
  (extractMessage ((parseJson (decodeBody body)).getD .null)).bind (Completion.finish schema)

/-! ## A stream of events -/

/-- The variables of `generateStructuredStreaming` that events change. -/
structure StreamState where
  lastEvent : JsString
  usage : TokenUsage
  stopReason : JsValue
  textParts : OrderedMap JsNumber JsString
  blockTypes : OrderedMap JsNumber JsValue

/-- The variables before the first event. -/
def StreamState.initial : StreamState where
  lastEvent := js "(none)"
  usage := ⟨.undefined, .undefined, .undefined, .undefined⟩
  stopReason := .undefined
  textParts := .empty
  blockTypes := .empty

/-- A field that is replaced only by a value that is there. -/
def restated (value kept : JsValue) : JsValue :=
  if value.isUndefined then kept else value

/-- `message_start`. -/
def StreamState.messageStart (state : StreamState) (payload : JsValue) : StreamState :=
  let usage := readUsage ((payload.property (js "message")).property (js "usage"))
  { state with
    usage :=
      { state.usage with
        inputTokens := usage.inputTokens
        cacheReadTokens := restated usage.cacheReadTokens state.usage.cacheReadTokens
        cacheCreationTokens :=
          restated usage.cacheCreationTokens state.usage.cacheCreationTokens } }

/-- `content_block_start`. -/
def StreamState.blockStart (state : StreamState) (payload : JsValue) (index : JsNumber) :
    StreamState :=
  let type := (payload.property (js "content_block")).property (js "type")
  { state with
    blockTypes := state.blockTypes.set index (type.orElse (.string (js "text")))
    textParts :=
      if type.asString = some (js "text") then state.textParts.set index [] else state.textParts }

/-- `content_block_delta`: only the text of text blocks is kept. -/
def StreamState.blockDelta (state : StreamState) (payload : JsValue) (index : JsNumber) :
    StreamState :=
  let delta := payload.property (js "delta")
  let isText := (delta.property (js "type")).asString = some (js "text_delta") ∧
    (state.blockTypes.get? index).bind JsValue.asString = some (js "text")
  match (delta.property (js "text")).asString with
  | some text =>
      if isText then
        { state with
          textParts := state.textParts.set index ((state.textParts.get? index).getD [] ++ text) }
      else
        state
  | none => state

/-- `message_delta`. -/
def StreamState.messageDelta (state : StreamState) (payload : JsValue) : StreamState :=
  let usage := readUsage (payload.property (js "usage"))
  { state with
    stopReason :=
      ((payload.property (js "delta")).property (js "stop_reason")).orElse state.stopReason
    usage :=
      { state.usage with
        outputTokens := restated usage.outputTokens state.usage.outputTokens
        cacheReadTokens := restated usage.cacheReadTokens state.usage.cacheReadTokens
        cacheCreationTokens :=
          restated usage.cacheCreationTokens state.usage.cacheCreationTokens } }

/-- `Number(payload["index"] ?? 0)`. -/
def blockIndex (payload : JsValue) : Option JsNumber :=
  ((payload.property (js "index")).orElse (.number (JsNumber.ofNat 0))).toNumber

/-- `err?.message ?? JSON.stringify(payload)` and `err.type`. -/
def streamError (payload : JsValue) : LLMError :=
  let error := payload.property (js "error")
  .streamError ((error.property (js "message")).orElse (.string payload.stringify))
    (error.property (js "type"))

/-- A payload with its type: events of other types are ignored. -/
def applyPayload (state : StreamState) (type payload : JsValue) : Reaction StreamState LLMError :=
  let is (name : String) : Bool := type.asString = some (js name)
  if is "message_start" then
    .next (state.messageStart payload)
  else if is "content_block_start" then
    match blockIndex payload with
    | some index => .next (state.blockStart payload index)
    | none => .fail .typeError
  else if is "content_block_delta" then
    match blockIndex payload with
    | some index => .next (state.blockDelta payload index)
    | none => .fail .typeError
  else if is "message_delta" then
    .next (state.messageDelta payload)
  else if is "message_stop" then
    .stop state
  else if is "error" then
    .fail (streamError payload)
  else
    .next state

/-- The name an event line gives, the last one of several. -/
def eventName (lines : List JsString) : JsString :=
  lines.foldl (fun name line =>
    if startsWith line (js "event: ") then trim (line.drop 7) else name) []

/-- The texts of the data lines. -/
def dataLines (lines : List JsString) : List JsString :=
  lines.filterMap fun line => if startsWith line (js "data: ") then some (line.drop 6) else none

/-- The payload of an event; data that is no JSON has none. -/
def payloadOf (data : List JsString) : Option JsValue :=
  if data = [] then some (.object []) else parseJson ([lineFeed].intercalate data)

/-- What the loop does with the text of one event.  The type of `null` is no type: reading it
throws. -/
def handleEvent (state : StreamState) (rawEvent : JsString) : Reaction StreamState LLMError :=
  let lines := rawEvent.splitOn lineFeed
  let name := eventName lines
  let data := dataLines lines
  if name = [] ∧ data = [] then
    .next state
  else
    let seen := { state with lastEvent := if name = [] then js "data" else name }
    match payloadOf data with
    | none => .next seen
    | some payload =>
        if payload.isNullish then
          .fail .typeError
        else
          applyPayload seen ((payload.property (js "type")).orElse (.string name)) payload

/-- `buffer.indexOf("\n\n")`, and the text before and after it. -/
def cutEvent : JsString → Option (JsString × JsString)
  | [] => none
  | [_] => none
  | first :: second :: rest =>
      if first = lineFeed ∧ second = lineFeed then
        some ([], rest)
      else
        (cutEvent (second :: rest)).map fun parts => (first :: parts.1, parts.2)

theorem cutEvent_eq {text record rest : JsString} (found : cutEvent text = some (record, rest)) :
    text = record ++ lineFeed :: lineFeed :: rest := by
  fun_induction cutEvent text generalizing record with
  | case1 => cases found
  | case2 => cases found
  | case3 first second others blank =>
      obtain ⟨rfl, rfl⟩ := Prod.mk.inj (Option.some.inj found)
      rw [blank.1, blank.2]
      rfl
  | case4 first second others plain inductionHypothesis =>
      obtain ⟨⟨before, after⟩, later, same⟩ := Option.map_eq_some_iff.mp found
      obtain ⟨rfl, rfl⟩ := Prod.mk.inj same
      rw [inductionHypothesis later]
      rfl

theorem cutEvent_append {text record rest : JsString} (more : JsString)
    (found : cutEvent text = some (record, rest)) :
    cutEvent (text ++ more) = some (record, rest ++ more) := by
  fun_induction cutEvent text generalizing record with
  | case1 => cases found
  | case2 => cases found
  | case3 first second others blank =>
      obtain ⟨rfl, rfl⟩ := Prod.mk.inj (Option.some.inj found)
      simp only [List.cons_append, cutEvent, if_pos blank]
  | case4 first second others plain inductionHypothesis =>
      obtain ⟨⟨before, after⟩, later, same⟩ := Option.map_eq_some_iff.mp found
      obtain ⟨rfl, rfl⟩ := Prod.mk.inj same
      have grown := inductionHypothesis later
      simp only [List.cons_append] at grown ⊢
      rw [cutEvent, if_neg plain, grown]
      rfl

/-- Events end at a blank line. -/
def eventFormat : RecordFormat CodeUnit where
  cut := cutEvent
  shorter found := by
    rw [cutEvent_eq found]
    simp
    omega
  stable := cutEvent_append

/-- What the stream does after its last chunk. -/
inductive StreamEnd where
  | closed
  | broken
  | stalled

/-- The variables of the loop over the chunks. -/
structure StreamReader where
  decoder : TextDecoder
  buffer : JsString
  chunks : Nat
  bytes : Nat
  state : StreamState

/-- The variables before the first chunk. -/
def StreamReader.initial : StreamReader :=
  ⟨.fresh, [], 0, 0, .initial⟩

/-- What a stream that ends throws. -/
def StreamReader.abort (reader : StreamReader) : StreamEnd → LLMError
  | .closed => .streamAborted reader.chunks reader.bytes reader.state.lastEvent
  | .broken => .streamAborted reader.chunks reader.bytes reader.state.lastEvent
  | .stalled => .stalled reader.chunks reader.state.lastEvent

/-- The text parts in the order of their indexes. -/
def StreamState.completion (state : StreamState) : Completion where
  text := [lineFeed].intercalate ((sortByNumber Prod.fst state.textParts.entries).map Prod.snd)
  stopReason := state.stopReason
  usage := state.usage

/-- The loop of `generateStructuredStreaming` over the chunks. -/
def readStream (reader : StreamReader) :
    List (List Octet) → StreamEnd → Except LLMError Completion
  | [], ending => .error (reader.abort ending)
  | chunk :: chunks, ending =>
      let decoded := reader.decoder.decode chunk
      match drain eventFormat handleEvent reader.state (reader.buffer ++ decoded.1) with
      | .waiting state buffer =>
          readStream ⟨decoded.2, buffer, reader.chunks + 1, reader.bytes + chunk.length, state⟩
            chunks ending
      | .stopped state => .ok state.completion
      | .failed failure => .error failure

def generateStructuredStreaming {Value : Type} (schema : Schema Value)
    (chunks : List (List Octet)) (ending : StreamEnd) : Except LLMError (Value × TokenUsage) :=
  (readStream .initial chunks ending).bind (Completion.finish schema)

end SpecAsCode.Llm
