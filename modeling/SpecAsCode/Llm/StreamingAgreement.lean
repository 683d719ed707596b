import SpecAsCode.Llm.TransportParity
import SpecAsCode.Text.Utf8Search

/-!
# Streams in chunks

What the streaming transport makes of a stream is decided by the octets of the stream and by
how it ends.
-/

namespace SpecAsCode.Llm

open SpecAsCode.Js
open SpecAsCode.Text
open SpecAsCode.Lib

/-! ## Chunks -/

/-- The code of what a stream throws when it ends too early. -/
def StreamEnd.code : StreamEnd → LLMCode
  | .closed => .streamAborted
  | .broken => .streamAborted
  | .stalled => .timeout

/-- How the reading of a stream comes out, up to the texts of the messages. -/
def outcomeOf (ending : StreamEnd) :
    Reading CodeUnit StreamState LLMError → Except (Option LLMCode) Completion
  | .waiting _ _ => .error (some ending.code)
  | .stopped last => .ok last.completion
  | .failed failure => .error failure.code

theorem feed_stopped (last : StreamState) (pieces : List JsString) :
    feed eventFormat handleEvent (.stopped last) pieces = .stopped last := by
  induction pieces with
  | nil => rfl
  | cons piece pieces inductionHypothesis => exact inductionHypothesis

theorem feed_failed (failure : LLMError) (pieces : List JsString) :
    feed eventFormat handleEvent (.failed failure) pieces = .failed failure := by
  induction pieces with
  | nil => rfl
  | cons piece pieces inductionHypothesis => exact inductionHypothesis

/-- The loop over the chunks feeds a reader with what the decoder makes of them. -/
theorem readStream_feed (reader : StreamReader) (chunks : List (List Octet)) (ending : StreamEnd) :
    (readStream reader chunks ending).mapError LLMError.code =
      outcomeOf ending (feed eventFormat handleEvent (.waiting reader.state reader.buffer)
        (reader.decoder.decodeAll chunks)) := by
  induction chunks generalizing reader with
  | nil => cases ending <;> rfl
  | cons chunk chunks inductionHypothesis =>
      rw [readStream, TextDecoder.decodeAll, feed, Reading.andThen_waiting]
      cases reading : drain eventFormat handleEvent reader.state
          (reader.buffer ++ (reader.decoder.decode chunk).1) with
      | waiting state buffer =>
          exact inductionHypothesis _
      | stopped state =>
          simp only [feed_stopped]
          rfl
      | failed failure =>
          simp only [feed_failed]
          rfl

/-- The text of a stream. -/
def streamText (chunks : List (List Octet)) : JsString :=
  (TextDecoder.fresh.decodeAll chunks).flatten

/-- A stream is read as if it came in one chunk. -/
theorem readStream_drain (chunks : List (List Octet)) (ending : StreamEnd) :
    (readStream .initial chunks ending).mapError LLMError.code =
      outcomeOf ending (drain eventFormat handleEvent .initial (streamText chunks)) := by
  have start : drain eventFormat handleEvent StreamState.initial [] = .waiting .initial [] :=
    drain_none rfl
  have fed := @feed_drain _ _ _ eventFormat handleEvent StreamState.initial []
    (TextDecoder.fresh.decodeAll chunks)
  rw [start, List.nil_append] at fed
  rw [readStream_feed]
  exact congrArg _ fed

theorem mapError_bind {Failure Other First Second : Type} (code : Failure → Other)
    (first : Except Failure First) (second : First → Except Failure Second) :
    (first.bind second).mapError code =
      (first.mapError code).bind fun value => (second value).mapError code := by
  cases first <;> rfl

theorem eq_ok_of_mapError {Failure Other Value : Type} {code : Failure → Other}
    {result : Except Failure Value} {value : Value} (same : result.mapError code = .ok value) :
    result = .ok value := by
  cases result with
  | error failure => cases same
  | ok other => exact congrArg _ (Except.ok.inj same)

/-! ## The text of a message -/

variable {events : List WireEvent}

theorem wireText_eq_nil (wellFormed : WellFormedStream events) : events ≠ [] := by
  rintro rfl
  exact wellFormed.message

theorem isWellFormedText_flatMap {Item : Type} {write : Item → JsString} {items : List Item}
    (written : ∀ item ∈ items, isWellFormedText (write item) = true) :
    isWellFormedText (items.flatMap write) = true := by
  induction items with
  | nil => rfl
  | cons item items inductionHypothesis =>
      rw [List.flatMap_cons]
      exact isWellFormedText_append (written item List.mem_cons_self)
        (inductionHypothesis fun other member => written other (List.mem_cons_of_mem _ member))

theorem WireEvent.WellFormed.lines_wellFormed {wire : WireEvent} (wellFormed : wire.WellFormed) :
    isWellFormedText (wire.texts.flatMap fun text => text ++ [lineFeed]) = true :=
  isWellFormedText_flatMap fun text member =>
    isWellFormedText_append (wellFormed.unicode text member) (by decide)

/-- The text does not start with a byte order mark. -/
theorem WellFormedStream.head (wellFormed : WellFormedStream events) :
    ∃ first rest, wireText events = first :: rest ∧ first ≠ byteOrderMark := by
  obtain ⟨wire, others, rfl⟩ := List.exists_cons_of_ne_nil (wireText_eq_nil wellFormed)
  obtain ⟨line, lines, shape⟩ := List.exists_cons_of_ne_nil
    (wellFormed.wire wire List.mem_cons_self).lines_ne_nil
  rw [wireText, List.flatMap_cons, WireEvent.text, WireEvent.texts, shape]
  cases line with
  | event name => exact ⟨_, _, rfl, by decide⟩
  | data text => exact ⟨_, _, rfl, by decide⟩

/-- The text ends with a line feed. -/
theorem WellFormedStream.last (wellFormed : WellFormedStream events) :
    ∃ before, isWellFormedText before = true ∧ wireText events = before ++ [lineFeed] := by
  obtain ⟨others, wire, rfl⟩ :=
    (List.eq_nil_or_concat events).resolve_left (wireText_eq_nil wellFormed)
  rw [List.concat_eq_append] at wellFormed
  refine ⟨wireText others ++ wire.texts.flatMap fun text => text ++ [lineFeed], ?_, ?_⟩
  · refine isWellFormedText_append (isWellFormedText_flatMap fun other member => ?_)
      (wellFormed.wire wire (by simp)).lines_wellFormed
    exact isWellFormedText_append
      (wellFormed.wire other (List.mem_append_left _ member)).lines_wellFormed (by decide)
  · simp [wireText, WireEvent.text]

/-- A stream that starts with the octets of the message has a text that starts with the
text of the message. -/
theorem WellFormedStream.streamText_complete (wellFormed : WellFormedStream events)
    {chunks : List (List Octet)} {tail : List Octet}
    (octets : chunks.flatten = encodeUtf8 (wireText events) ++ tail) :
    ∃ more, streamText chunks = wireText events ++ more := by
  obtain ⟨before, unicode, ended⟩ := wellFormed.last
  obtain ⟨first, rest, started, plain⟩ := wellFormed.head
  refine ⟨(decodeRun .start tail).1, ?_⟩
  have run := @decodeRun_encodeUtf8 before unicode lineFeed (by decide)
  rw [← ended] at run
  rw [streamText, flatten_decodeAll, octets, decodeRun_append, run]
  exact stripMark_eq_self (by rw [started]; simpa using plain)

/-- A stream that lacks octets of the message has a text that lacks text of the message. -/
theorem WellFormedStream.streamText_truncated (wellFormed : WellFormedStream events)
    {chunks : List (List Octet)} {missing : List Octet} (more : missing ≠ [])
    (octets : chunks.flatten ++ missing = encodeUtf8 (wireText events)) :
    ∃ lacking, lacking ≠ [] ∧ wireText events = streamText chunks ++ lacking := by
  obtain ⟨before, unicode, ended⟩ := wellFormed.last
  obtain ⟨first, rest, started, plain⟩ := wellFormed.head
  have run := @decodeRun_encodeUtf8 before unicode lineFeed (by decide)
  rw [← ended, ← octets, decodeRun_append, Prod.mk.injEq] at run
  -- the last octet that is missing is the one of the line feed
  obtain ⟨others, last, rfl⟩ := (List.eq_nil_or_concat missing).resolve_left more
  have lineOctet : last = octet lineFeed.val := by
    rw [ended, encodeUtf8_append unicode, encodeUtf8_ascii (by decide), List.concat_eq_append,
      ← List.append_assoc] at octets
    exact (List.append_singleton_inj.mp octets).2
  have bounded : (decodeRun .start chunks.flatten).2.Bounded :=
    @bounded_decodeRun .start trivial _
  obtain ⟨decoded, lacking⟩ := @decodeRun_ascii _ bounded others last
    (by rw [lineOctet]; decide)
  rw [List.concat_eq_append, lacking] at run
  refine ⟨decoded ++ [Fin.ofNat 65536 last.val], by simp, ?_⟩
  have same : stripMark (decodeRun .start chunks.flatten).1 = (decodeRun .start chunks.flatten).1 := by
    refine stripMark_eq_self fun mark => plain ?_
    obtain ⟨kept, marked⟩ := List.head?_eq_some_iff.mp mark
    have shape := run.1
    rw [marked, started, List.cons_append, List.cons.injEq] at shape
    exact shape.1.symm
  rw [streamText, flatten_decodeAll, same]
  exact run.1.symm

/-! ## Where a value comes from -/

/-- The text holds an event of type `message_stop`. -/
def HasMessageStop (text : JsString) : Prop :=
  ∃ before rawEvent after payload,
    text = before ++ rawEvent ++ lineFeed :: lineFeed :: after ∧
      payloadOf (dataLines (rawEvent.splitOn lineFeed)) = some payload ∧
      ((payload.property (js "type")).orElse
        (.string (eventName (rawEvent.splitOn lineFeed)))).asString = some (js "message_stop")

theorem applyPayload_stop {state last : StreamState} {type payload : JsValue}
    (stopped : applyPayload state type payload = .stop last) :
    type.asString = some (js "message_stop") := by
  simp only [applyPayload, decide_eq_true_eq] at stopped
  split_ifs at stopped with start blockStart blockDelta delta stop
  · split at stopped <;> cases stopped
  · split at stopped <;> cases stopped
  · exact stop

theorem handleEvent_stop {state last : StreamState} {rawEvent : JsString}
    (stopped : handleEvent state rawEvent = .stop last) :
    ∃ payload, payloadOf (dataLines (rawEvent.splitOn lineFeed)) = some payload ∧
      ((payload.property (js "type")).orElse
        (.string (eventName (rawEvent.splitOn lineFeed)))).asString = some (js "message_stop") := by
  rw [handleEvent] at stopped
  simp only at stopped
  split at stopped
  · cases stopped
  · split at stopped
    · cases stopped
    · next payload found =>
        split at stopped
        · cases stopped
        · exact ⟨payload, found, applyPayload_stop stopped⟩

/-- Only an event that stops the message stops the reader. -/
theorem hasMessageStop {state last : StreamState} (text : JsString)
    (stopped : drain eventFormat handleEvent state text = .stopped last) : HasMessageStop text := by
  induction size : text.length using Nat.strongRecOn generalizing state text with
  | ind length inductionHypothesis =>
      cases found : cutEvent text with
      | none =>
          rw [drain_none found] at stopped
          cases stopped
      | some parts =>
          obtain ⟨rawEvent, rest⟩ := parts
          have shape := cutEvent_eq found
          rw [drain_some found] at stopped
          cases reaction : handleEvent state rawEvent with
          | fail failure => simp only [reaction, reduceCtorEq] at stopped
          | stop next =>
              obtain ⟨payload, data, type⟩ := handleEvent_stop reaction
              exact ⟨[], rawEvent, rest, payload, shape, data, type⟩
          | next next =>
              simp only [reaction] at stopped
              have less : rest.length < length := size ▸ eventFormat.shorter found
              obtain ⟨before, other, after, payload, later, data, type⟩ :=
                inductionHypothesis rest.length less rest stopped rfl
              refine ⟨rawEvent ++ lineFeed :: lineFeed :: before, other, after, payload, ?_, data,
                type⟩
              rw [shape, later]
              simp

/-! ## The transports agree -/

/-- For the events of a message, in whatever chunks they come: the streaming transport takes
from them what the other one takes from a body with the message, and gives what the other one
gives; how the octets are cut does not matter; and without the end of the message there is no
value. -/
theorem streaming_agrees {Value : Type} (schema : Schema Value)
    (wellFormed : WellFormedStream events) :
    (∀ chunks tail ending json, chunks.flatten = encodeUtf8 (wireText events) ++ tail →
      (assemble (events.map WireEvent.event)).RenderedBy json →
        readStream .initial chunks ending = extractMessage json ∧
          ∀ body, parseJson (decodeBody body) = some json →
            generateStructuredStreaming schema chunks ending = generateStructured schema body) ∧
      (∀ chunks others ending, chunks.flatten = others.flatten →
        (generateStructuredStreaming schema chunks ending).mapError LLMError.code =
          (generateStructuredStreaming schema others ending).mapError LLMError.code) ∧
      (∀ chunks missing ending, missing ≠ [] →
        chunks.flatten ++ missing = encodeUtf8 (wireText events) →
          (generateStructuredStreaming schema chunks ending).mapError LLMError.code =
            .error (some ending.code)) ∧
      ∀ chunks ending result, generateStructuredStreaming schema chunks ending = .ok result →
        HasMessageStop (streamText chunks) := by
  have follows : Follows .initial .empty (events.map WireEvent.event) :=
    .before _ rfl rfl wellFormed.message
  refine ⟨?_, ?_, ?_, ?_⟩
  · intro chunks tail ending json octets rendered
    obtain ⟨more, text⟩ := wellFormed.streamText_complete octets
    obtain ⟨last, stopped, completion⟩ := follows.drain wellFormed.wire more
    have read : readStream .initial chunks ending = extractMessage json := by
      have code := readStream_drain chunks ending
      rw [text, stopped] at code
      rw [eq_ok_of_mapError code, extractMessage_rendered rendered, completion]
      rfl
    refine ⟨read, fun body parsed => ?_⟩
    rw [generateStructuredStreaming, read, generateStructured, parsed]
    rfl
  · intro chunks others ending same
    rw [generateStructuredStreaming, generateStructuredStreaming, mapError_bind, mapError_bind,
      readStream_drain, readStream_drain, streamText, streamText, flatten_decodeAll,
      flatten_decodeAll, same]
  · intro chunks missing ending more octets
    obtain ⟨lacking, some_lacking, text⟩ := wellFormed.streamText_truncated more octets
    obtain ⟨last, carried, waiting⟩ := follows.waits wellFormed.wire text some_lacking
    rw [generateStructuredStreaming, mapError_bind, readStream_drain, waiting]
    rfl
  · intro chunks ending result generated
    have code := readStream_drain chunks ending
    cases reading : drain eventFormat handleEvent StreamState.initial (streamText chunks) with
    | stopped last => exact hasMessageStop _ reading
    | waiting state carried =>
        rw [reading] at code
        rw [generateStructuredStreaming] at generated
        cases read : readStream .initial chunks ending with
        | error failure => rw [read] at generated; cases generated
        | ok completion => rw [read] at code; cases code
    | failed failure =>
        rw [reading] at code
        rw [generateStructuredStreaming] at generated
        cases read : readStream .initial chunks ending with
        | error failure => rw [read] at generated; cases generated
        | ok completion => rw [read] at code; cases code

/-! A message whose thinking comes between the text of its answer. -/

/-- The lines in which a server sends an event. -/
def sentEvent (event : MessageEvent) (name : String) (payload : Json) : WireEvent :=
  ⟨[.event (js name), .data payload.1.stringify], event⟩

theorem wellFormed_sentEvent {event : MessageEvent} {name : String} {payload : Json}
    (printed : Printed (js name)) (told : Says payload.1 event) :
    (sentEvent event name payload).WellFormed := by
  have texts : (sentEvent event name payload).texts =
      [js "event: " ++ js name, js "data: " ++ payload.1.stringify] := rfl
  have lines : ∀ text ∈ (sentEvent event name payload).texts, Printed text := by
    rw [texts]
    refine List.forall_mem_cons.mpr ⟨(printed_word _ (by decide)).append printed,
      List.forall_mem_singleton.mpr ?_⟩
    exact (printed_word _ (by decide)).append (printed_stringify payload.1)
  refine ⟨fun text member found => ?_, fun text member => (lines text member).wellFormed,
    payload.1, ?_, told⟩
  · have control := (lines text member).printable lineFeed found
    exact absurd control (by decide)
  · show parseJson ([lineFeed].intercalate [payload.1.stringify]) = _
    rw [List.intercalate_singleton]
    exact parseJson_stringify payload.2

/-- A count. -/
def count (value : Nat) (finite : (JsValue.number (JsNumber.ofNat value)).isJson = true) : Json :=
  ⟨.number (JsNumber.ofNat value), finite⟩

def thoughtUsage : Json :=
  .object [(js "input_tokens", some (count 3 (by decide +kernel)))] (by decide)

def answerUsage : Json :=
  .object [(js "output_tokens", some (count 5 (by decide +kernel)))] (by decide)

def zeroIndex : Json :=
  count 0 (by decide +kernel)

def oneIndex : Json :=
  count 1 (by decide +kernel)

/-- The events of the answer `{}` with a thought before it. -/
def thoughtfulEvents : List WireEvent :=
  [sentEvent (.messageStart (readUsage thoughtUsage.1)) "message_start"
      (.object [(js "type", some (.text (js "message_start"))),
        (js "message", some (.object [(js "usage", some thoughtUsage)] (by decide)))] (by decide)),
    sentEvent (.blockStart (JsNumber.ofNat 0) (js "thinking")) "content_block_start"
      (.object [(js "type", some (.text (js "content_block_start"))), (js "index", some zeroIndex),
        (js "content_block", some (.object [(js "type", some (.text (js "thinking")))]
          (by decide)))] (by decide)),
    sentEvent (.blockStart (JsNumber.ofNat 1) (js "text")) "content_block_start"
      (.object [(js "type", some (.text (js "content_block_start"))), (js "index", some oneIndex),
        (js "content_block", some (.object [(js "type", some (.text (js "text"))),
          (js "text", some (.text []))] (by decide)))] (by decide)),
    sentEvent (.textDelta (JsNumber.ofNat 1) (js "\x7b")) "content_block_delta"
      (.object [(js "type", some (.text (js "content_block_delta"))), (js "index", some oneIndex),
        (js "delta", some (.object [(js "type", some (.text (js "text_delta"))),
          (js "text", some (.text (js "\x7b")))] (by decide)))] (by decide)),
    sentEvent (.otherDelta (JsNumber.ofNat 0)) "content_block_delta"
      (.object [(js "type", some (.text (js "content_block_delta"))), (js "index", some zeroIndex),
        (js "delta", some (.object [(js "type", some (.text (js "thinking_delta")))] (by decide)))]
        (by decide)),
    sentEvent .ping "ping" (.object [(js "type", some (.text (js "ping")))] (by decide)),
    sentEvent (.textDelta (JsNumber.ofNat 1) (js "\x7d")) "content_block_delta"
      (.object [(js "type", some (.text (js "content_block_delta"))), (js "index", some oneIndex),
        (js "delta", some (.object [(js "type", some (.text (js "text_delta"))),
          (js "text", some (.text (js "\x7d")))] (by decide)))] (by decide)),
    sentEvent (.messageDelta (js "end_turn") (readUsage answerUsage.1)) "message_delta"
      (.object [(js "type", some (.text (js "message_delta"))),
        (js "delta", some (.object [(js "stop_reason", some (.text (js "end_turn")))] (by decide))),
        (js "usage", some answerUsage)] (by decide)),
    sentEvent .messageStop "message_stop"
      (.object [(js "type", some (.text (js "message_stop")))] (by decide))]

theorem wellFormed_thoughtfulEvents : WellFormedStream thoughtfulEvents := by
  constructor
  · intro wire member
    simp only [thoughtfulEvents, List.mem_cons, List.not_mem_nil, or_false] at member
    rcases member with rfl | rfl | rfl | rfl | rfl | rfl | rfl | rfl | rfl
    · exact wellFormed_sentEvent (printed_word _ (by decide)) ⟨rfl, rfl⟩
    · exact wellFormed_sentEvent (printed_word _ (by decide))
        ⟨rfl, rfl, rfl, fun text held => by cases held⟩
    · exact wellFormed_sentEvent (printed_word _ (by decide))
        ⟨rfl, rfl, rfl, fun text held => (JsValue.string.inj held).symm⟩
    · exact wellFormed_sentEvent (printed_word _ (by decide)) ⟨rfl, rfl, rfl, rfl⟩
    · exact wellFormed_sentEvent (printed_word _ (by decide))
        ⟨rfl, rfl, js "thinking_delta", rfl, by decide⟩
    · exact wellFormed_sentEvent (printed_word _ (by decide)) rfl
    · exact wellFormed_sentEvent (printed_word _ (by decide)) ⟨rfl, rfl, rfl, rfl⟩
    · exact wellFormed_sentEvent (printed_word _ (by decide)) ⟨rfl, rfl, rfl⟩
    · exact wellFormed_sentEvent (printed_word _ (by decide)) rfl
  · have less : (JsNumber.ofNat 0).less (JsNumber.ofNat 1) = true := by decide +kernel
    refine ⟨by simp, ?_, by simp, by simp, by simp, rfl, rfl, rfl⟩
    simpa using less

/-- The body with the same message. -/
def thoughtfulBody : Json :=
  .object
    [(js "content", some (.array
        [.object [(js "type", some (.text (js "thinking")))] (by decide),
          .object [(js "type", some (.text (js "text"))),
            (js "text", some (.text (js "\x7b\x7d")))] (by decide)])),
      (js "stop_reason", some (.text (js "end_turn"))),
      (js "usage", some (.object
        [(js "input_tokens", some (count 3 (by decide +kernel))),
          (js "output_tokens", some (count 5 (by decide +kernel)))] (by decide)))] (by decide)

theorem renderedBy_thoughtfulBody :
    (assemble (thoughtfulEvents.map WireEvent.event)).RenderedBy thoughtfulBody.1 := by
  have different : JsNumber.ofNat 0 ≠ JsNumber.ofNat 1 := by decide +kernel
  have blocks : (assemble (thoughtfulEvents.map WireEvent.event)).blocks =
      [⟨JsNumber.ofNat 0, js "thinking", []⟩,
        ⟨JsNumber.ofNat 1, js "text", js "\x7b" ++ js "\x7d"⟩] := by
    simp [thoughtfulEvents, sentEvent, assemble, Message.hear, ContentBlock.extend, different,
      Message.empty]
  refine ⟨⟨_, rfl, ?_⟩, rfl, rfl⟩
  rw [blocks]
  refine .cons ⟨rfl, fun text => absurd text (by decide)⟩ (.cons ⟨rfl, fun _ => ?_⟩ .nil)
  rfl

theorem streaming_agrees_thoughtful :
    generateStructuredStreaming (Except.ok : Schema JsValue)
        [(encodeUtf8 (wireText thoughtfulEvents)).take 7,
          (encodeUtf8 (wireText thoughtfulEvents)).drop 7] .closed =
      generateStructured Except.ok (encodeUtf8 thoughtfulBody.1.stringify) := by
  have read : parseJson (decodeBody (encodeUtf8 thoughtfulBody.1.stringify)) =
      some thoughtfulBody.1 := by
    have plain : thoughtfulBody.1.stringify.head? ≠ some byteOrderMark := ne_of_beq_false rfl
    rw [decodeBody, decodeUtf8_wellFormed (printed_stringify _).wellFormed,
      stripMark_eq_self plain]
    exact parseJson_stringify thoughtfulBody.2
  exact ((streaming_agrees Except.ok wellFormed_thoughtfulEvents).1 _ [] .closed _ (by simp)
    renderedBy_thoughtfulBody).2 _ read

end SpecAsCode.Llm
