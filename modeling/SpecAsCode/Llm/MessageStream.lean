import SpecAsCode.Llm.Anthropic

/-!
# Message streams

What the events of a message stream say, and the message they make up.  The variables of the
streaming transport follow that message event by event.
-/

namespace SpecAsCode.Llm

open SpecAsCode.Js
open SpecAsCode.Lib

/-! ## The message -/

/-- What an event says. -/
inductive MessageEvent where
  | messageStart (usage : TokenUsage)
  | blockStart (index : JsNumber) (type : JsString)
  | textDelta (index : JsNumber) (text : JsString)
  /-- A delta of another kind, such as thinking. -/
  | otherDelta (index : JsNumber)
  | blockStop (index : JsNumber)
  | ping
  | messageDelta (stopReason : JsString) (usage : TokenUsage)
  | messageStop

/-- A content block. -/
structure ContentBlock where
  index : JsNumber
  type : JsString
  text : JsString

/-- A block of text. -/
def ContentBlock.isText (block : ContentBlock) : Bool :=
  block.type == js "text"

/-- The block of an index with more text. -/
def ContentBlock.extend (index : JsNumber) (text : JsString) (block : ContentBlock) :
    ContentBlock :=
  if block.index = index then { block with text := block.text ++ text } else block

/-- A message. -/
structure Message where
  blocks : List ContentBlock
  stopReason : JsValue
  usage : TokenUsage

/-- The message before its first event. -/
def Message.empty : Message :=
  ⟨[], .null, ⟨.undefined, .undefined, .undefined, .undefined⟩⟩

/-- A message after one more event.  The input is counted when the message starts, the
output when it ends. -/
def Message.hear (message : Message) : MessageEvent → Message
  | .messageStart usage => { message with usage }
  | .blockStart index type => { message with blocks := message.blocks ++ [⟨index, type, []⟩] }
  | .textDelta index text =>
      { message with blocks := message.blocks.map (ContentBlock.extend index text) }
  | .otherDelta _ => message
  | .blockStop _ => message
  | .ping => message
  | .messageDelta stopReason usage =>
      { message with
        stopReason := .string stopReason
        usage :=
          { inputTokens := message.usage.inputTokens
            outputTokens := restated usage.outputTokens message.usage.outputTokens
            cacheReadTokens := restated usage.cacheReadTokens message.usage.cacheReadTokens
            cacheCreationTokens :=
              restated usage.cacheCreationTokens message.usage.cacheCreationTokens } }
  | .messageStop => message

/-- The message that a stream of events makes up. -/
def assemble (events : List MessageEvent) : Message :=
  events.foldl Message.hear .empty

/-- A block of the body of a response. -/
structure ContentBlock.RenderedBy (block : ContentBlock) (value : JsValue) : Prop where
  type : value.property (js "type") = .string block.type
  text : block.isText = true → value.property (js "text") = .string block.text

/-- A body that holds a message. -/
structure Message.RenderedBy (message : Message) (json : JsValue) : Prop where
  content : ∃ items, json.property (js "content") = .array items ∧
    List.Forall₂ ContentBlock.RenderedBy message.blocks items
  stopReason : json.property (js "stop_reason") = message.stopReason
  usage : readUsage (json.property (js "usage")) = message.usage

/-- The texts of a message. -/
def Message.texts (message : Message) : List JsString :=
  (message.blocks.filter ContentBlock.isText).map ContentBlock.text

/-- What a transport takes from a message. -/
def Message.completion (message : Message) : Completion :=
  ⟨[lineFeed].intercalate message.texts, message.stopReason, message.usage⟩

theorem filterMap_blockText {blocks : List ContentBlock} {items : List JsValue}
    (rendered : List.Forall₂ ContentBlock.RenderedBy blocks items) :
    items.filterMap blockText = (blocks.filter ContentBlock.isText).map ContentBlock.text := by
  induction rendered with
  | nil => rfl
  | @cons block item blocks items head rest inductionHypothesis =>
      have typed : (item.property (js "type")).asString = some block.type := by rw [head.type]; rfl
      cases kind : block.isText with
      | true =>
          have text : blockText item = some block.text := by
            rw [blockText, typed, if_pos (congrArg some (eq_of_beq kind)), head.text kind]
            rfl
          rw [List.filterMap_cons_some text, List.filter_cons_of_pos kind, List.map_cons,
            inductionHypothesis]
      | false =>
          have none : blockText item = none := by
            rw [blockText, typed, if_neg]
            intro same
            rw [ContentBlock.isText, Option.some.inj same, beq_self_eq_true] at kind
            cases kind
          rw [List.filterMap_cons_none none, List.filter_cons_of_neg (by rw [kind]; decide),
            inductionHypothesis]

theorem isNullish_of_rendered {blocks : List ContentBlock} {items : List JsValue}
    (rendered : List.Forall₂ ContentBlock.RenderedBy blocks items) :
    items.any JsValue.isNullish = false := by
  induction rendered with
  | nil => rfl
  | @cons block item blocks items head rest inductionHypothesis =>
      have typed := head.type
      rw [List.any_cons, inductionHypothesis, Bool.or_false]
      cases item with
      | undefined => cases typed
      | null => cases typed
      | bool value => rfl
      | number value => rfl
      | string value => rfl
      | array values => rfl
      | object members => rfl

/-- The transport of one body takes the message that the body holds. -/
theorem extractMessage_rendered {message : Message} {json : JsValue}
    (rendered : message.RenderedBy json) : extractMessage json = .ok message.completion := by
  obtain ⟨items, content, blocks⟩ := rendered.content
  have listed : (JsValue.array items).orElse (.array []) = .array items := rfl
  simp only [extractMessage, contentText, content, listed, isNullish_of_rendered blocks,
    Bool.false_eq_true, if_false, filterMap_blockText blocks, rendered.stopReason, rendered.usage]
  rfl

/-! ## Events on the wire -/

/-- `payload.type === name`. -/
def HasType (payload : JsValue) (name : String) : Prop :=
  payload.property (js "type") = .string (js name)

/-- A payload that says something about a block. -/
def HasIndex (payload : JsValue) (index : JsNumber) : Prop :=
  payload.property (js "index") = .number index

/-- What a payload says.  It may hold other fields as well. -/
def Says (payload : JsValue) : MessageEvent → Prop
  | .messageStart usage =>
      HasType payload "message_start" ∧
        readUsage ((payload.property (js "message")).property (js "usage")) = usage
  | .blockStart index type =>
      HasType payload "content_block_start" ∧ HasIndex payload index ∧
        (payload.property (js "content_block")).property (js "type") = .string type ∧
        ∀ text, (payload.property (js "content_block")).property (js "text") = .string text →
          text = []
  | .textDelta index text =>
      HasType payload "content_block_delta" ∧ HasIndex payload index ∧
        (payload.property (js "delta")).property (js "type") = .string (js "text_delta") ∧
        (payload.property (js "delta")).property (js "text") = .string text
  | .otherDelta index =>
      HasType payload "content_block_delta" ∧ HasIndex payload index ∧
        ∃ kind, (payload.property (js "delta")).property (js "type") = .string kind ∧
          kind ≠ js "text_delta"
  | .blockStop index => HasType payload "content_block_stop" ∧ HasIndex payload index
  | .ping => HasType payload "ping"
  | .messageDelta stopReason usage =>
      HasType payload "message_delta" ∧
        (payload.property (js "delta")).property (js "stop_reason") = .string stopReason ∧
        readUsage (payload.property (js "usage")) = usage
  | .messageStop => HasType payload "message_stop"

/-- The rest of a stream whose message has started: blocks start at increasing indexes, and
the message ends after its stop reason and the count of its output. -/
def Continues (started : List JsNumber) (accounted : Bool) : List MessageEvent → Prop
  | [] => False
  | .messageStart _ :: _ => False
  | .blockStart index _ :: rest =>
      (∀ earlier ∈ started, earlier.less index = true) ∧
        Continues (started ++ [index]) accounted rest
  | .textDelta index _ :: rest => index ∈ started ∧ Continues started accounted rest
  | .otherDelta index :: rest => index ∈ started ∧ Continues started accounted rest
  | .blockStop index :: rest => index ∈ started ∧ Continues started accounted rest
  | .ping :: rest => Continues started accounted rest
  | .messageDelta _ usage :: rest =>
      usage.outputTokens.isUndefined = false ∧ Continues started true rest
  | .messageStop :: rest => accounted = true ∧ rest = []

/-- The events of a whole message. -/
def IsMessage : List MessageEvent → Prop
  | .ping :: rest => IsMessage rest
  | .messageStart _ :: rest => Continues [] false rest
  | _ => False

/-! ## The variables follow the message -/

/-- The variables hold the message so far.  The stop reason and the output count are known
when the message is accounted for. -/
structure Reflects (state : StreamState) (message : Message) (started : List JsNumber)
    (accounted : Bool) : Prop where
  started : message.blocks.map ContentBlock.index = started
  ascending : message.blocks.Pairwise fun first second => first.index.less second.index = true
  types : state.blockTypes.entries =
    message.blocks.map fun block => (block.index, JsValue.string block.type)
  parts : state.textParts.entries =
    (message.blocks.filter ContentBlock.isText).map fun block => (block.index, block.text)
  inputTokens : state.usage.inputTokens = message.usage.inputTokens
  cacheReadTokens : state.usage.cacheReadTokens = message.usage.cacheReadTokens
  cacheCreationTokens : state.usage.cacheCreationTokens = message.usage.cacheCreationTokens
  outputTokens : accounted = true → state.usage.outputTokens = message.usage.outputTokens
  stopReason : accounted = true → state.stopReason = message.stopReason

variable {state : StreamState} {message : Message} {started : List JsNumber} {accounted : Bool}
variable {payload : JsValue}

/-- The name of the last event is no part of the message. -/
theorem Reflects.named (reflects : Reflects state message started accounted) (name : JsString) :
    Reflects { state with lastEvent := name } message started accounted where
  started := reflects.started
  ascending := reflects.ascending
  types := reflects.types
  parts := reflects.parts
  inputTokens := reflects.inputTokens
  cacheReadTokens := reflects.cacheReadTokens
  cacheCreationTokens := reflects.cacheCreationTokens
  outputTokens := reflects.outputTokens
  stopReason := reflects.stopReason

/-- The completion of a stream is the completion of its message. -/
theorem Reflects.completion (reflects : Reflects state message started true) :
    state.completion = message.completion := by
  have ascending : state.textParts.entries.Pairwise fun first second =>
      first.1.less second.1 = true := by
    rw [reflects.parts, List.pairwise_map]
    exact reflects.ascending.sublist List.filter_sublist
  have usage : state.usage = message.usage := by
    exact congr (congr (congr (congrArg TokenUsage.mk reflects.inputTokens)
      (reflects.outputTokens rfl)) reflects.cacheReadTokens) reflects.cacheCreationTokens
  rw [StreamState.completion, sortByNumber_ascending ascending, reflects.parts, List.map_map,
    reflects.stopReason rfl, usage]
  rfl

/-- A block is found by its index. -/
theorem Reflects.unique (reflects : Reflects state message started accounted)
    {block other : ContentBlock} (member : block ∈ message.blocks)
    (otherMember : other ∈ message.blocks) (same : block.index = other.index) : block = other := by
  have distinct : (message.blocks.map ContentBlock.index).Nodup := by
    rw [List.Nodup, List.pairwise_map]
    refine reflects.ascending.imp fun {first second} less equal => ?_
    rw [equal, JsNumber.less_irrefl] at less
    cases less
  exact List.inj_on_of_nodup_map distinct member otherMember same

theorem Reflects.blockStart (reflects : Reflects state message started accounted)
    {index : JsNumber} {type : JsString}
    (typed : (payload.property (js "content_block")).property (js "type") = .string type)
    (above : ∀ earlier ∈ started, earlier.less index = true) :
    Reflects (state.blockStart payload index) (message.hear (.blockStart index type))
      (started ++ [index]) accounted := by
  have fresh : ∀ block ∈ message.blocks, block.index ≠ index := by
    intro block member same
    have less := above block.index (reflects.started ▸ List.mem_map_of_mem member)
    rw [same, JsNumber.less_irrefl] at less
    cases less
  have newType : index ∉ state.blockTypes.entries.map Prod.fst := by
    rw [reflects.types, List.map_map, List.mem_map]
    rintro ⟨block, member, same⟩
    exact fresh block member same
  have newPart : index ∉ state.textParts.entries.map Prod.fst := by
    rw [reflects.parts, List.map_map, List.mem_map]
    rintro ⟨block, member, same⟩
    exact fresh block (List.mem_filter.mp member).1 same
  refine ⟨?_, ?_, ?_, ?_, reflects.inputTokens, reflects.cacheReadTokens,
    reflects.cacheCreationTokens, reflects.outputTokens, reflects.stopReason⟩
  · simp only [Message.hear, List.map_append, reflects.started]
    rfl
  · simp only [Message.hear, List.pairwise_append, List.pairwise_singleton, List.mem_singleton]
    refine ⟨reflects.ascending, trivial, ?_⟩
    rintro block member _ rfl
    exact above block.index (reflects.started ▸ List.mem_map_of_mem member)
  · simp only [StreamState.blockStart, typed, Message.hear, List.map_append, ← reflects.types]
    exact OrderedMap.entries_set_of_not_mem newType
  · simp only [StreamState.blockStart, typed, Message.hear, List.filter_append, List.map_append,
      ← reflects.parts, JsValue.asString, Option.some.injEq]
    by_cases text : type = js "text"
    · subst text
      rw [if_pos rfl, OrderedMap.entries_set_of_not_mem newPart]
      rfl
    · rw [if_neg text, List.filter_cons_of_neg (by simpa [ContentBlock.isText] using text)]
      simp

/-- Text that goes to a block of text is added to its part. -/
theorem Reflects.textDelta (reflects : Reflects state message started accounted)
    {index : JsNumber} {text : JsString}
    (typed : (payload.property (js "delta")).property (js "type") = .string (js "text_delta"))
    (held : (payload.property (js "delta")).property (js "text") = .string text)
    (known : index ∈ started) :
    Reflects (state.blockDelta payload index) (message.hear (.textDelta index text)) started
      accounted := by
  rw [← reflects.started, List.mem_map] at known
  obtain ⟨block, member, rfl⟩ := known
  have indexes : ∀ other, (ContentBlock.extend block.index text other).index = other.index := by
    intro other
    rw [ContentBlock.extend]
    split <;> rfl
  have types : ∀ other, (ContentBlock.extend block.index text other).type = other.type := by
    intro other
    rw [ContentBlock.extend]
    split <;> rfl
  have typeFound : state.blockTypes.get? block.index = some (.string block.type) := by
    rw [OrderedMap.get?_eq_some, reflects.types]
    exact List.mem_map_of_mem member
  have heard : ((message.hear (.textDelta block.index text)).blocks.filter
      ContentBlock.isText).map (fun other => (other.index, other.text)) =
      (message.blocks.filter ContentBlock.isText).map fun other =>
        (other.index, (ContentBlock.extend block.index text other).text) := by
    rw [Message.hear, List.filter_map, List.map_map]
    have same : ContentBlock.isText ∘ ContentBlock.extend block.index text =
        ContentBlock.isText := by
      funext other
      rw [Function.comp_apply, ContentBlock.isText, types]
      rfl
    rw [same]
    exact List.map_congr_left fun other _ => by rw [Function.comp_apply, indexes]
  have state_eq : state.blockDelta payload block.index =
      if block.isText = true then
        { state with
          textParts :=
            state.textParts.set block.index ((state.textParts.get? block.index).getD [] ++ text) }
      else state := by
    simp only [StreamState.blockDelta, held, typed, typeFound, JsValue.asString, Option.bind_some,
      Option.some.injEq, true_and, ContentBlock.isText, beq_iff_eq]
  rw [state_eq]
  refine ⟨?_, ?_, ?_, ?_, ?_, ?_, ?_, ?_, ?_⟩
  · simp only [Message.hear, List.map_map]
    rw [← reflects.started]
    exact List.map_congr_left fun other _ => indexes other
  · simp only [Message.hear, List.pairwise_map, indexes]
    exact reflects.ascending
  · have kept : (message.hear (.textDelta block.index text)).blocks.map
        (fun other => (other.index, JsValue.string other.type)) =
        message.blocks.map fun other => (other.index, JsValue.string other.type) := by
      rw [Message.hear, List.map_map]
      exact List.map_congr_left fun other _ => by rw [Function.comp_apply, indexes, types]
    rw [kept, ← reflects.types]
    split <;> rfl
  · rw [heard]
    cases kind : block.isText with
    | true =>
        have part : state.textParts.get? block.index = some block.text := by
          rw [OrderedMap.get?_eq_some, reflects.parts]
          exact List.mem_map.mpr ⟨block, List.mem_filter.mpr ⟨member, kind⟩, rfl⟩
        have listed : block.index ∈ state.textParts.entries.map Prod.fst :=
          List.mem_map.mpr ⟨_, OrderedMap.get?_eq_some.mp part, rfl⟩
        rw [if_pos rfl]
        show (state.textParts.set _ _).entries = _
        rw [OrderedMap.entries_set_of_mem listed, part, reflects.parts, OrderedMap.replaceEntry,
          List.map_map]
        refine List.map_congr_left fun other otherMember => ?_
        rw [Function.comp_apply, ContentBlock.extend]
        by_cases same : other.index = block.index
        · have equal := reflects.unique (List.mem_filter.mp otherMember).1 member same
          subst equal
          simp
        · rw [if_neg same, if_neg same]
    | false =>
        rw [if_neg (by decide), reflects.parts]
        refine List.map_congr_left fun other otherMember => ?_
        obtain ⟨inside, otherKind⟩ := List.mem_filter.mp otherMember
        have different : other.index ≠ block.index := by
          intro same
          rw [reflects.unique inside member same, kind] at otherKind
          cases otherKind
        rw [ContentBlock.extend, if_neg different]
  · split <;> exact reflects.inputTokens
  · split <;> exact reflects.cacheReadTokens
  · split <;> exact reflects.cacheCreationTokens
  · split <;> exact reflects.outputTokens
  · split <;> exact reflects.stopReason

/-- Other deltas change nothing. -/
theorem blockDelta_other {index : JsNumber} {kind : JsString}
    (typed : (payload.property (js "delta")).property (js "type") = .string kind)
    (other : kind ≠ js "text_delta") : state.blockDelta payload index = state := by
  simp only [StreamState.blockDelta, typed, JsValue.asString, Option.some.injEq, other, false_and,
    if_false]
  split <;> rfl

theorem Reflects.messageDelta (reflects : Reflects state message started accounted)
    {stopReason : JsString} {usage : TokenUsage}
    (stopped : (payload.property (js "delta")).property (js "stop_reason") = .string stopReason)
    (counted : readUsage (payload.property (js "usage")) = usage)
    (output : usage.outputTokens.isUndefined = false) :
    Reflects (state.messageDelta payload) (message.hear (.messageDelta stopReason usage)) started
      true where
  started := reflects.started
  ascending := reflects.ascending
  types := reflects.types
  parts := reflects.parts
  inputTokens := reflects.inputTokens
  cacheReadTokens := by
    simp only [StreamState.messageDelta, counted, Message.hear, reflects.cacheReadTokens]
  cacheCreationTokens := by
    simp only [StreamState.messageDelta, counted, Message.hear, reflects.cacheCreationTokens]
  outputTokens _ := by
    simp only [StreamState.messageDelta, counted, Message.hear, restated, output,
      Bool.false_eq_true, if_false]
  stopReason _ := by
    simp only [StreamState.messageDelta, stopped, Message.hear]
    rfl

end SpecAsCode.Llm
