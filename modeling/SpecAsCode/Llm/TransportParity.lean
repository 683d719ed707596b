import SpecAsCode.Js.JsonObject
import SpecAsCode.Llm.MessageStream
import SpecAsCode.Text.JsonText

/-!
# Parity of the transports

The streaming transport takes from the events of a message what the other transport takes
from a body with the whole message, whatever chunks the events arrive in.
-/

namespace SpecAsCode.Llm

open SpecAsCode.Js
open SpecAsCode.Text
open SpecAsCode.Lib

/-! ## The wire -/

/-- A line of an event. -/
inductive WireLine where
  | event (name : JsString)
  | data (text : JsString)

def WireLine.text : WireLine → JsString
  | .event name => js "event: " ++ name
  | .data text => js "data: " ++ text

/-- The text of a data line. -/
def WireLine.dataText : WireLine → Option JsString
  | .event _ => none
  | .data text => some text

/-- An event with the lines it is sent in. -/
structure WireEvent where
  lines : List WireLine
  event : MessageEvent

/-- The texts of the lines. -/
def WireEvent.texts (wire : WireEvent) : List JsString :=
  wire.lines.map WireLine.text

/-- The lines, each ended by a line feed, and a blank line. -/
def WireEvent.text (wire : WireEvent) : JsString :=
  (wire.texts.flatMap fun text => text ++ [lineFeed]) ++ [lineFeed]

/-- The lines are lines of UTF-8, and their data told what the event does. -/
structure WireEvent.WellFormed (wire : WireEvent) : Prop where
  oneLine : ∀ text ∈ wire.texts, lineFeed ∉ text
  unicode : ∀ text ∈ wire.texts, isWellFormedText text = true
  told : ∃ payload,
    parseJson ([lineFeed].intercalate (wire.lines.filterMap WireLine.dataText)) = some payload ∧
      Says payload wire.event

/-- The text of a stream. -/
def wireText (events : List WireEvent) : JsString :=
  events.flatMap WireEvent.text

/-- The events of a message, well-formed on the wire. -/
structure WellFormedStream (events : List WireEvent) : Prop where
  wire : ∀ wire ∈ events, wire.WellFormed
  message : IsMessage (events.map WireEvent.event)

/-! ## Cutting events off -/

theorem cutEvent_blank {line : JsString} (plain : lineFeed ∉ line) (rest : JsString) :
    cutEvent (line ++ lineFeed :: lineFeed :: rest) = some (line, rest) := by
  induction line with
  | nil => exact if_pos ⟨rfl, rfl⟩
  | cons code line inductionHypothesis =>
      rw [List.mem_cons, not_or] at plain
      have later := inductionHypothesis plain.2
      obtain ⟨second, others, shape⟩ :
          ∃ second others, line ++ lineFeed :: lineFeed :: rest = second :: others :=
        List.exists_cons_of_ne_nil (by simp)
      rw [shape] at later
      rw [List.cons_append, shape, cutEvent, if_neg fun blank => plain.1 blank.1.symm, later]
      rfl

theorem cutEvent_line {line : JsString} (plain : lineFeed ∉ line) {code : CodeUnit}
    (solid : code ≠ lineFeed) (rest : JsString) :
    cutEvent (line ++ lineFeed :: code :: rest) =
      (cutEvent (code :: rest)).map fun parts => (line ++ lineFeed :: parts.1, parts.2) := by
  induction line with
  | nil => exact if_neg fun blank => solid blank.2
  | cons first line inductionHypothesis =>
      rw [List.mem_cons, not_or] at plain
      have later := inductionHypothesis plain.2
      obtain ⟨second, others, shape⟩ :
          ∃ second others, line ++ lineFeed :: code :: rest = second :: others :=
        List.exists_cons_of_ne_nil (by simp)
      rw [shape] at later
      rw [List.cons_append, shape, cutEvent, if_neg fun blank => plain.1 blank.1.symm, later,
        Option.map_map]
      rfl

/-- A block of lines is cut off at the blank line behind it. -/
theorem cutEvent_lines {texts : List JsString} (nonempty : texts ≠ [])
    (plain : ∀ text ∈ texts, lineFeed ∉ text) (solid : ∀ text ∈ texts, text ≠ [])
    (rest : JsString) :
    cutEvent ((texts.flatMap fun text => text ++ [lineFeed]) ++ lineFeed :: rest) =
      some ([lineFeed].intercalate texts, rest) := by
  induction texts with
  | nil => exact absurd rfl nonempty
  | cons text texts inductionHypothesis =>
      cases texts with
      | nil =>
          have cut := cutEvent_blank (plain text List.mem_cons_self) rest
          simpa [List.intercalate] using cut
      | cons next texts =>
          have later := inductionHypothesis (List.cons_ne_nil _ _)
            (fun other member => plain other (List.mem_cons_of_mem _ member))
            fun other member => solid other (List.mem_cons_of_mem _ member)
          obtain ⟨code, others, rfl⟩ :=
            List.exists_cons_of_ne_nil (solid next (by simp))
          have different : code ≠ lineFeed := by
            rintro rfl
            exact plain (lineFeed :: others) (by simp) List.mem_cons_self
          have cut := cutEvent_line (plain text List.mem_cons_self) different
            (others ++ [lineFeed] ++ (texts.flatMap fun text => text ++ [lineFeed]) ++
              lineFeed :: rest)
          simp only [List.flatMap_cons, List.cons_append, List.append_assoc, List.nil_append]
            at later cut ⊢
          rw [cut, later]
          simp [List.intercalate]

variable {wire : WireEvent}

theorem WireEvent.WellFormed.lines_ne_nil (wellFormed : wire.WellFormed) : wire.lines ≠ [] := by
  intro empty
  obtain ⟨payload, parsed, -⟩ := wellFormed.told
  rw [empty] at parsed
  cases parsed

theorem WireEvent.text_ne_nil {text : JsString} (member : text ∈ wire.texts) : text ≠ [] := by
  obtain ⟨line, -, rfl⟩ := List.mem_map.mp member
  cases line <;> exact List.cons_ne_nil _ _

/-- The event is the first record of a text that starts with it. -/
theorem WireEvent.WellFormed.cut (wellFormed : wire.WellFormed) (rest : JsString) :
    cutEvent (wire.text ++ rest) = some ([lineFeed].intercalate wire.texts, rest) := by
  rw [WireEvent.text, List.append_assoc]
  exact cutEvent_lines (by simpa [WireEvent.texts] using wellFormed.lines_ne_nil)
    wellFormed.oneLine (fun _ member => WireEvent.text_ne_nil member) rest

/-- A part of the event is no record. -/
theorem WireEvent.WellFormed.cut_part (wellFormed : wire.WellFormed) {part missing : JsString}
    (parts : wire.text = part ++ missing) (more : missing ≠ []) : cutEvent part = none := by
  cases found : cutEvent part with
  | none => rfl
  | some cut =>
      have whole := wellFormed.cut []
      rw [List.append_nil, parts, cutEvent_append missing found, Option.some.injEq,
        Prod.mk.injEq, List.append_eq_nil_iff] at whole
      exact absurd whole.2.2 more

theorem dataLines_texts (lines : List WireLine) :
    dataLines (lines.map WireLine.text) = lines.filterMap WireLine.dataText := by
  rw [dataLines, List.filterMap_map]
  refine List.filterMap_congr fun line _ => ?_
  cases line with
  | event name => rfl
  | data text => rfl

/-- What is done for an event is what is done for its payload. -/
theorem WireEvent.WellFormed.handle (wellFormed : wire.WellFormed) (state : StreamState) :
    ∃ payload name, Says payload wire.event ∧
      handleEvent state ([lineFeed].intercalate wire.texts) =
        applyPayload { state with lastEvent := name } (payload.property (js "type")) payload := by
  obtain ⟨payload, parsed, told⟩ := wellFormed.told
  have lines : ([lineFeed].intercalate wire.texts).splitOn lineFeed = wire.texts :=
    List.splitOn_intercalate _ wellFormed.oneLine
      (by simpa [WireEvent.texts] using wellFormed.lines_ne_nil)
  have some_data : wire.lines.filterMap WireLine.dataText ≠ [] := by
    intro empty
    rw [empty] at parsed
    cases parsed
  obtain ⟨type, typed⟩ : ∃ type, payload.property (js "type") = .string type := by
    cases event : wire.event <;> rw [event] at told <;>
      first | exact ⟨_, told⟩ | exact ⟨_, told.1⟩
  have isObject : payload.isNullish = false := by
    cases payload with
    | undefined => cases typed
    | null => cases typed
    | bool value => rfl
    | number value => rfl
    | string value => rfl
    | array values => rfl
    | object members => rfl
  have kept : ∀ other, (JsValue.string type).orElse other = .string type := fun _ => rfl
  have data : dataLines wire.texts = wire.lines.filterMap WireLine.dataText :=
    dataLines_texts wire.lines
  refine ⟨payload, if eventName wire.texts = [] then js "data" else eventName wire.texts, told, ?_⟩
  simp only [handleEvent, lines, data, some_data, and_false, if_false, payloadOf, parsed, isObject,
    Bool.false_eq_true, typed, kept]

/-! ## Following a message -/

/-- The variables before the message starts, or while it goes on. -/
inductive Follows (state : StreamState) (message : Message) (rest : List MessageEvent) : Prop
  | before (name : JsString) (fresh : state = { StreamState.initial with lastEvent := name })
      (empty : message = .empty) (isMessage : IsMessage rest)
  | within {started : List JsNumber} {accounted : Bool}
      (reflects : Reflects state message started accounted)
      (continues : Continues started accounted rest)

theorem reflects_messageStart {payload : JsValue} {usage : TokenUsage} (name : JsString)
    (counted : readUsage ((payload.property (js "message")).property (js "usage")) = usage) :
    Reflects (StreamState.messageStart { StreamState.initial with lastEvent := name } payload)
      (Message.empty.hear (.messageStart usage)) [] false where
  started := rfl
  ascending := List.Pairwise.nil
  types := rfl
  parts := rfl
  inputTokens := by rw [StreamState.messageStart, counted]; rfl
  cacheReadTokens := by
    simp only [StreamState.messageStart, counted, restated, StreamState.initial, Message.hear]
    cases usage.cacheReadTokens <;> rfl
  cacheCreationTokens := by
    simp only [StreamState.messageStart, counted, restated, StreamState.initial, Message.hear]
    cases usage.cacheCreationTokens <;> rfl
  outputTokens accounted := by cases accounted
  stopReason accounted := by cases accounted

variable {state : StreamState} {message : Message} {rest : List MessageEvent}

theorem applyPayload_blockStart {payload : JsValue} {index : JsNumber}
    (found : blockIndex payload = some index) :
    applyPayload state (.string (js "content_block_start")) payload =
      .next (state.blockStart payload index) := by
  rw [applyPayload, found]
  rfl

theorem applyPayload_blockDelta {payload : JsValue} {index : JsNumber}
    (found : blockIndex payload = some index) :
    applyPayload state (.string (js "content_block_delta")) payload =
      .next (state.blockDelta payload index) := by
  rw [applyPayload, found]
  rfl

/-- One more payload: the variables follow the message, or the message has ended. -/
theorem Follows.apply {event : MessageEvent} {payload : JsValue}
    (follows : Follows state message (event :: rest)) (told : Says payload event)
    (name : JsString) :
    (∃ next, applyPayload { state with lastEvent := name } (payload.property (js "type")) payload =
        .next next ∧ Follows next (message.hear event) rest) ∨
      (event = .messageStop ∧ rest = [] ∧ ∃ last,
        applyPayload { state with lastEvent := name } (payload.property (js "type")) payload =
          .stop last ∧ last.completion = message.completion) := by
  have index_eq : ∀ {index}, HasIndex payload index → blockIndex payload = some index := by
    intro index held
    rw [blockIndex, held]
    rfl
  cases follows with
  | before other fresh empty isMessage =>
      subst fresh empty
      cases event with
      | ping =>
          rw [show payload.property (js "type") = _ from told]
          exact Or.inl ⟨_, rfl, .before name rfl rfl isMessage⟩
      | messageStart usage =>
          rw [show payload.property (js "type") = _ from told.1]
          exact Or.inl ⟨_, rfl, .within (reflects_messageStart name told.2) isMessage⟩
      | _ => cases isMessage
  | within reflects continues =>
      have named := reflects.named name
      cases event with
      | messageStart usage => cases continues
      | blockStart index type =>
          obtain ⟨typed, held, kind, -⟩ := told
          rw [show payload.property (js "type") = _ from typed]
          exact Or.inl ⟨_, applyPayload_blockStart (index_eq held),
            .within (named.blockStart kind continues.1) continues.2⟩
      | textDelta index text =>
          obtain ⟨typed, held, kind, content⟩ := told
          rw [show payload.property (js "type") = _ from typed]
          exact Or.inl ⟨_, applyPayload_blockDelta (index_eq held),
            .within (named.textDelta kind content continues.1) continues.2⟩
      | otherDelta index =>
          obtain ⟨typed, held, kind, content, other⟩ := told
          rw [show payload.property (js "type") = _ from typed]
          refine Or.inl ⟨_, ?_, .within named continues.2⟩
          rw [applyPayload_blockDelta (index_eq held), blockDelta_other content other]
      | blockStop index =>
          rw [show payload.property (js "type") = _ from told.1]
          exact Or.inl ⟨_, rfl, .within named continues.2⟩
      | ping =>
          rw [show payload.property (js "type") = _ from told]
          exact Or.inl ⟨_, rfl, .within named continues⟩
      | messageDelta stopReason usage =>
          obtain ⟨typed, stopped, counted⟩ := told
          rw [show payload.property (js "type") = _ from typed]
          exact Or.inl ⟨_, rfl, .within (named.messageDelta stopped counted continues.1)
            continues.2⟩
      | messageStop =>
          obtain ⟨rfl, rfl⟩ := continues
          rw [show payload.property (js "type") = _ from told]
          exact Or.inr ⟨rfl, rfl, _, rfl, named.completion⟩

/-- One more event on the wire. -/
theorem Follows.read (follows : Follows state message (wire.event :: rest))
    (wellFormed : wire.WellFormed) :
    (∃ next, (∀ more, drain eventFormat handleEvent state (wire.text ++ more) =
        drain eventFormat handleEvent next more) ∧ Follows next (message.hear wire.event) rest) ∨
      (rest = [] ∧ ∃ last, (∀ more, drain eventFormat handleEvent state (wire.text ++ more) =
        .stopped last) ∧ last.completion = (message.hear wire.event).completion) := by
  obtain ⟨payload, name, told, handled⟩ := wellFormed.handle state
  rcases follows.apply told name with ⟨next, applied, continues⟩ | ⟨stop, done, last, applied, same⟩
  · refine Or.inl ⟨next, fun more => ?_, continues⟩
    rw [@drain_some _ _ _ eventFormat handleEvent state _ _ _ (wellFormed.cut more), handled, applied]
  · refine Or.inr ⟨done, last, fun more => ?_, by rw [stop]; exact same⟩
    rw [@drain_some _ _ _ eventFormat handleEvent state _ _ _ (wellFormed.cut more), handled, applied]

/-- A whole message is read up to its end, whatever comes after it. -/
theorem Follows.drain {events : List WireEvent}
    (follows : Follows state message (events.map WireEvent.event))
    (wellFormed : ∀ wire ∈ events, wire.WellFormed) (tail : JsString) :
    ∃ last, Lib.drain eventFormat handleEvent state (wireText events ++ tail) = .stopped last ∧
      last.completion = ((events.map WireEvent.event).foldl Message.hear message).completion := by
  induction events generalizing state message with
  | nil =>
      cases follows with
      | before name fresh empty isMessage => cases isMessage
      | within reflects continues => cases continues
  | cons wire events inductionHypothesis =>
      have head := wellFormed wire List.mem_cons_self
      have others := fun other member => wellFormed other (List.mem_cons_of_mem wire member)
      rw [wireText, List.flatMap_cons, List.append_assoc]
      rcases follows.read head with ⟨next, read, later⟩ | ⟨done, last, read, same⟩
      · rw [read]
        exact inductionHypothesis later others
      · refine ⟨last, read _, ?_⟩
        rw [List.map_eq_nil_iff] at done
        rw [done]
        exact same

/-- A stream of a message that is cut short is waited for. -/
theorem Follows.waits {events : List WireEvent}
    (follows : Follows state message (events.map WireEvent.event))
    (wellFormed : ∀ wire ∈ events, wire.WellFormed) {part missing : JsString}
    (parts : wireText events = part ++ missing) (more : missing ≠ []) :
    ∃ last carried, Lib.drain eventFormat handleEvent state part = .waiting last carried := by
  induction events generalizing state message part with
  | nil => exact absurd (List.append_eq_nil_iff.mp parts.symm).2 more
  | cons wire events inductionHypothesis =>
      have head := wellFormed wire List.mem_cons_self
      have others := fun other member => wellFormed other (List.mem_cons_of_mem wire member)
      rw [wireText, List.flatMap_cons] at parts
      rcases List.append_eq_append_iff.mp parts with
        ⟨within, partParts, restParts⟩ | ⟨within, wireParts, missingParts⟩
      · rcases follows.read head with ⟨next, read, later⟩ | ⟨done, last, read, same⟩
        · rw [partParts, read]
          exact inductionHypothesis later others restParts
        · rw [List.map_eq_nil_iff] at done
          rw [done] at restParts
          exact absurd (List.append_eq_nil_iff.mp restParts.symm).2 more
      · by_cases whole : within = []
        · -- the part ends where the event does
          subst whole
          rw [List.append_nil] at wireParts
          rcases follows.read head with ⟨next, read, later⟩ | ⟨done, last, read, same⟩
          · have step := read []
            rw [List.append_nil] at step
            rw [← wireParts, step]
            exact ⟨next, [], drain_none rfl⟩
          · rw [List.map_eq_nil_iff] at done
            rw [done] at missingParts
            exact absurd missingParts more
        · exact ⟨state, part, drain_none (head.cut_part wireParts whole)⟩

end SpecAsCode.Llm
