import SpecAsCode.Js.RoundTrip

/-!
# Texts that break off

What the machine of `JSON.parse` does with a text that breaks off inside an object, and
with the text of another object put behind it.
-/

namespace SpecAsCode.Js

/-- The machine is inside of an array or object. -/
def ParseState.Enclosed (state : ParseState) : Prop :=
  match state.mode with
  | .firstKey => True
  | .key _ => True
  | .colon _ _ => True
  | .string (.key _) _ _ => True
  | .word _ missing => state.frames ≠ [] ∧ unit '{' ∉ missing
  | _ => state.frames ≠ []

/-- The machine has read a complete text. -/
def ParseState.Closed (state : ParseState) : Prop :=
  ∃ value, state = ⟨.done value, []⟩

theorem ParseState.Closed.step {state next : ParseState} {code : CodeUnit}
    (closed : state.Closed) (stepped : step state code = some next) :
    next.Closed ∧ isJsonSpace code = true := by
  obtain ⟨value, rfl⟩ := closed
  simp only [SpecAsCode.Js.step, afterValue] at stepped
  split at stepped
  next space =>
    cases stepped
    exact ⟨⟨value, rfl⟩, space⟩
  next => cases stepped

theorem ParseState.Closed.runFrom {state last : ParseState} {text : JsString}
    (closed : state.Closed) (ran : runFrom state text = some last) :
    last.Closed ∧ ∀ code ∈ text, isJsonSpace code = true := by
  induction text generalizing state with
  | nil =>
      cases ran
      exact ⟨closed, by simp⟩
  | cons code text inductionHypothesis =>
      rw [runFrom_cons] at ran
      cases stepped : SpecAsCode.Js.step state code with
      | none => rw [stepped] at ran; cases ran
      | some next =>
          rw [stepped] at ran
          obtain ⟨nextClosed, space⟩ := closed.step stepped
          obtain ⟨lastClosed, spaces⟩ := inductionHypothesis nextClosed ran
          exact ⟨lastClosed, List.forall_mem_cons.mpr ⟨space, spaces⟩⟩

/-! ## One code unit -/

private theorem enclosed_startValue {frames : List Frame} {code : CodeUnit} {next : ParseState}
    (nonempty : frames ≠ []) (started : startValue frames code = some next) : next.Enclosed := by
  rw [startValue] at started
  split_ifs at started <;> cases started <;>
    first
      | exact trivial
      | exact nonempty
      | exact List.cons_ne_nil _ _
      | exact ⟨nonempty, by decide⟩

/-- After a value inside of something the machine is still inside, or a closing bracket
has completed the text. -/
private theorem enclosed_afterValue {value : JsValue} {frames : List Frame} {code : CodeUnit}
    {next : ParseState} (nonempty : frames ≠ [])
    (stepped : afterValue value frames code = some next) :
    next.Enclosed ∨ (next.Closed ∧ (code = unit '}' ∨ code = unit ']')) := by
  have completed : ∀ (value : JsValue) (outer : List Frame),
      (⟨.done value, outer⟩ : ParseState).Enclosed ∨ (⟨.done value, outer⟩ : ParseState).Closed := by
    intro value outer
    cases outer with
    | nil => exact Or.inr ⟨value, rfl⟩
    | cons frame outer => exact Or.inl (List.cons_ne_nil _ _)
  unfold afterValue at stepped
  split at stepped
  · cases stepped
    exact Or.inl nonempty
  · cases frames with
    | nil => exact absurd rfl nonempty
    | cons frame outer =>
        cases frame with
        | array items =>
            simp only at stepped
            split_ifs at stepped with comma close
            · cases stepped
              exact Or.inl (List.cons_ne_nil _ _)
            · cases stepped
              exact (completed _ outer).imp_right fun closed => ⟨closed, Or.inr close⟩
        | member members key =>
            simp only at stepped
            split_ifs at stepped with comma close
            · cases stepped
              exact Or.inl trivial
            · cases stepped
              exact (completed _ outer).imp_right fun closed => ⟨closed, Or.inl close⟩

private theorem enclosed_stringStep {role : StringRole} {escape : Escape} {read : JsString}
    {frames : List Frame} {code : CodeUnit} {mode : Mode}
    (enclosed : (⟨.string role escape read, frames⟩ : ParseState).Enclosed)
    (stepped : stringStep role escape read code = some mode) :
    (⟨mode, frames⟩ : ParseState).Enclosed := by
  have same : ∀ (escape : Escape) (read : JsString),
      (⟨.string role escape read, frames⟩ : ParseState).Enclosed := by
    intro escape read
    cases role with
    | value => exact enclosed
    | key members => exact trivial
  cases escape with
  | none =>
      simp only [stringStep] at stepped
      split_ifs at stepped
      · cases stepped
        cases role with
        | value => exact enclosed
        | key members => exact trivial
      · cases stepped
        exact same _ _
      · cases stepped
        exact same _ _
  | backslash =>
      simp only [stringStep] at stepped
      split at stepped
      · cases stepped
        exact same _ _
      · obtain ⟨meant, -, rfl⟩ := Option.map_eq_some_iff.mp stepped
        exact same _ _
  | hex missing value =>
      simp only [stringStep] at stepped
      obtain ⟨digit, -, rfl⟩ := Option.map_eq_some_iff.mp stepped
      split
      · exact same _ _
      · exact same _ _

/-- A code unit read inside of something leaves the machine inside, or it is the bracket
that completes the text. -/
theorem ParseState.Enclosed.step {state next : ParseState} {code : CodeUnit}
    (enclosed : state.Enclosed) (stepped : step state code = some next) :
    next.Enclosed ∨ (next.Closed ∧ (code = unit '}' ∨ code = unit ']')) := by
  obtain ⟨mode, frames⟩ := state
  cases mode with
  | value =>
      simp only [SpecAsCode.Js.step] at stepped
      split at stepped
      · cases stepped
        exact Or.inl enclosed
      · exact Or.inl (enclosed_startValue enclosed stepped)
  | firstItem =>
      simp only [SpecAsCode.Js.step] at stepped
      split_ifs at stepped with space close
      · cases stepped
        exact Or.inl enclosed
      · cases stepped
        cases tail : frames.tail with
        | nil => exact Or.inr ⟨⟨_, rfl⟩, Or.inr close⟩
        | cons frame outer => exact Or.inl (List.cons_ne_nil _ _)
      · exact Or.inl (enclosed_startValue enclosed stepped)
  | firstKey =>
      simp only [SpecAsCode.Js.step] at stepped
      split_ifs at stepped with space close
      · cases stepped
        exact Or.inl enclosed
      · cases stepped
        cases frames with
        | nil => exact Or.inr ⟨⟨_, rfl⟩, Or.inl close⟩
        | cons frame outer => exact Or.inl (List.cons_ne_nil _ _)
      · cases stepped
        exact Or.inl trivial
  | key members =>
      simp only [SpecAsCode.Js.step] at stepped
      split_ifs at stepped <;> cases stepped <;> exact Or.inl trivial
  | colon members key =>
      simp only [SpecAsCode.Js.step] at stepped
      split_ifs at stepped
      · cases stepped
        exact Or.inl enclosed
      · cases stepped
        exact Or.inl (List.cons_ne_nil _ _)
  | done value => exact enclosed_afterValue enclosed stepped
  | string role escape read =>
      simp only [SpecAsCode.Js.step] at stepped
      obtain ⟨mode, modeStepped, rfl⟩ := Option.map_eq_some_iff.mp stepped
      exact Or.inl (enclosed_stringStep enclosed modeStepped)
  | word value missing =>
      obtain ⟨nonempty, letters⟩ := enclosed
      simp only [SpecAsCode.Js.step] at stepped
      split at stepped
      · cases stepped
      · split at stepped
        · cases stepped
          exact Or.inl nonempty
        · cases stepped
      · split at stepped
        · cases stepped
          exact Or.inl ⟨nonempty, fun member => letters (List.mem_cons_of_mem _ member)⟩
        · cases stepped
  | numeral read =>
      simp only [SpecAsCode.Js.step] at stepped
      split at stepped
      · cases stepped
        exact Or.inl enclosed
      · obtain ⟨decimal, -, settled⟩ := Option.bind_eq_some_iff.mp stepped
        exact enclosed_afterValue enclosed settled

theorem ParseState.Enclosed.runFrom {state last : ParseState} {text : JsString}
    (enclosed : state.Enclosed) (ran : runFrom state text = some last) :
    last.Enclosed ∨ last.Closed := by
  induction text generalizing state with
  | nil =>
      cases ran
      exact Or.inl enclosed
  | cons code text inductionHypothesis =>
      rw [runFrom_cons] at ran
      cases stepped : SpecAsCode.Js.step state code with
      | none => rw [stepped] at ran; cases ran
      | some next =>
          rw [stepped] at ran
          rcases enclosed.step stepped with nextEnclosed | ⟨nextClosed, -⟩
          · exact inductionHypothesis nextEnclosed ran
          · exact Or.inr (nextClosed.runFrom ran).1

theorem ParseState.Enclosed.result {state : ParseState} (enclosed : state.Enclosed) :
    state.result = none := by
  obtain ⟨mode, frames⟩ := state
  cases mode <;> cases frames <;> first | rfl | exact absurd rfl enclosed

/-! ## Torn texts -/

/-- The text breaks off inside of an array or object, or the machine refuses it. -/
def Torn (text : JsString) : Prop :=
  ∀ state, runFrom startState text = some state → state.Enclosed

/-- A torn text stays torn when a code unit other than a closing bracket is added. -/
theorem Torn.snoc {text : JsString} (torn : Torn text) {code : CodeUnit}
    (notBrace : code ≠ unit '}') (notBracket : code ≠ unit ']') : Torn (text ++ [code]) := by
  intro last ran
  rw [runFrom_append] at ran
  obtain ⟨state, before, stepped⟩ := Option.bind_eq_some_iff.mp ran
  rw [runFrom_cons] at stepped
  obtain ⟨next, stepped, finished⟩ := Option.bind_eq_some_iff.mp stepped
  cases finished
  exact ((torn state before).step stepped).resolve_right fun closed =>
    closed.2.elim notBrace notBracket

/-- A torn text is not parsed. -/
theorem Torn.parseJson {text : JsString} (torn : Torn text) : parseJson text = none := by
  have spaced := @Torn.snoc text torn (unit ' ') (by decide) (by decide)
  rw [SpecAsCode.Js.parseJson]
  cases ran : SpecAsCode.Js.runFrom startState (text ++ [unit ' ']) with
  | none => rfl
  | some last => exact (spaced last ran).result

/-- The text of an object. -/
structure ObjectText (text : JsString) : Prop where
  opens : text.head? = some (unit '{')
  closes : text.getLast? = some (unit '}')
  parses : ∃ value, parseJson text = some value

private theorem runFrom_opens {text : JsString} (opens : text.head? = some (unit '{')) :
    ∃ rest, runFrom startState text = runFrom ⟨.firstKey, []⟩ rest := by
  cases text with
  | nil => cases opens
  | cons code rest =>
      cases opens
      exact ⟨rest, runFrom_step rest (by rfl)⟩

/-- A proper prefix of the text of an object is torn. -/
theorem ObjectText.torn_prefix {text before after : JsString} (object : ObjectText text)
    (split : text = before ++ after) (some : before ≠ []) (more : after ≠ []) : Torn before := by
  intro state ran
  have opens : before.head? = Option.some (unit '{') := by
    rw [← object.opens, split, List.head?_append_of_ne_nil _ some]
  obtain ⟨rest, started⟩ := runFrom_opens opens
  have inside : (⟨.firstKey, []⟩ : ParseState).Enclosed := trivial
  rcases inside.runFrom (started ▸ ran) with enclosed | closed
  · exact enclosed
  · obtain ⟨value, parsed⟩ := object.parses
    rw [SpecAsCode.Js.parseJson, split, List.append_assoc, runFrom_append, ran] at parsed
    obtain ⟨last, remaining, -⟩ := Option.bind_eq_some_iff.mp parsed
    have spaces := (closed.runFrom remaining).2
    have closing : unit '}' ∈ after := by
      have last := object.closes
      rw [split, List.getLast?_append_of_ne_nil _ more] at last
      exact List.mem_of_getLast? last
    have space := spaces (unit '}') (List.mem_append_left _ closing)
    exact absurd space (by decide)

/-- After the text of an object the machine is done. -/
theorem ObjectText.closed {text : JsString} (object : ObjectText text) {state : ParseState}
    (ran : runFrom startState text = some state) : state.Closed := by
  obtain ⟨rest, started⟩ := runFrom_opens object.opens
  have inside : (⟨.firstKey, []⟩ : ParseState).Enclosed := trivial
  rcases inside.runFrom (started ▸ ran) with enclosed | closed
  · obtain ⟨value, parsed⟩ := object.parses
    have torn : Torn text := by
      intro other otherRan
      rw [ran] at otherRan
      cases otherRan
      exact enclosed
    rw [torn.parseJson] at parsed
    cases parsed
  · exact closed

/-- A printed object whose first key starts with a letter. -/
structure RecordText (text : JsString) : Prop where
  readBack : ∃ value, text = value.stringify ∧ ReadBack value
  shape : ∃ letter rest, text = unit '{' :: unit '"' :: letter :: rest ∧
    97 ≤ letter.val ∧ letter.val < 123

private theorem notSpace_letter {letter : CodeUnit} (low : 97 ≤ letter.val) :
    isJsonSpace letter = false := by
  simp only [isJsonSpace, Bool.or_eq_false_iff, beq_eq_false_iff_ne]
  omega

private theorem letter_ne {letter : CodeUnit} (low : 97 ≤ letter.val) (high : letter.val < 123) :
    letter ≠ unit ',' ∧ letter ≠ unit ']' ∧ letter ≠ unit '}' ∧ letter ≠ unit ':' := by
  refine ⟨?_, ?_, ?_, ?_⟩ <;> rintro rfl
  · exact absurd low (by decide)
  · exact absurd low (by decide)
  · exact absurd high (by decide)
  · exact absurd low (by decide)

private theorem afterValue_letter {value : JsValue} {frames : List Frame} {letter : CodeUnit}
    (low : 97 ≤ letter.val) (high : letter.val < 123) : afterValue value frames letter = none := by
  obtain ⟨comma, bracket, brace, -⟩ := letter_ne low high
  unfold afterValue
  rw [notSpace_letter low]
  cases frames with
  | nil => rfl
  | cons frame outer => cases frame <;> simp [comma, bracket, brace]

private theorem afterValue_open (value : JsValue) (frames : List Frame) :
    afterValue value frames (unit '{') = none := by
  cases frames with
  | nil => rfl
  | cons frame outer => cases frame <;> rfl

/-- A record is not read to its end inside of a string. -/
private theorem runFrom_string_record {role : StringRole} {escape : Escape} {read : JsString}
    {frames : List Frame} {letter : CodeUnit} (rest : JsString) (low : 97 ≤ letter.val)
    (high : letter.val < 123) :
    runFrom ⟨.string role escape read, frames⟩ (unit '{' :: unit '"' :: letter :: rest) = none := by
  cases escape with
  | none =>
      rw [@runFrom_step _ ⟨.string role .none (read ++ [unit '{']), frames⟩ _ _ (by rfl),
        @runFrom_step _ ⟨endString role (read ++ [unit '{']), frames⟩ _ _ (by rfl)]
      refine runFrom_stuck rest ?_
      cases role with
      | value => exact afterValue_letter low high
      | key members =>
          obtain ⟨-, -, -, colon⟩ := letter_ne low high
          simp only [endString, step, notSpace_letter low, if_neg colon, Bool.false_eq_true,
            if_false]
  | backslash => exact runFrom_stuck _ (by rfl)
  | hex missing value => exact runFrom_stuck _ (by rfl)

/-- Behind a torn text a record does not make a text. -/
theorem Torn.append_record {text record : JsString} (torn : Torn text)
    (recordText : RecordText record) : SpecAsCode.Js.parseJson (text ++ record) = none := by
  rw [SpecAsCode.Js.parseJson, List.append_assoc, runFrom_append]
  cases ran : SpecAsCode.Js.runFrom startState text with
  | none => rfl
  | some state =>
      have enclosed := torn state ran
      obtain ⟨mode, frames⟩ := state
      obtain ⟨letter, rest, shape, low, high⟩ := recordText.shape
      -- the record is read as a value inside of something
      have inner : frames ≠ [] →
          ((SpecAsCode.Js.runFrom ⟨.value, frames⟩ (record ++ [unit ' '])).bind
            ParseState.result) = none := by
        intro nonempty
        obtain ⟨value, text, readBack⟩ := recordText.readBack
        rw [text, readBack frames (unit ' ') [] (by decide)]
        have still : (⟨.done value, frames⟩ : ParseState).Enclosed := nonempty
        cases ran : SpecAsCode.Js.runFrom ⟨.done value, frames⟩ [unit ' '] with
        | none => rfl
        | some last =>
            rw [@runFrom_step _ ⟨.done value, frames⟩ _ _ (by rfl), runFrom_nil] at ran
            cases ran
            exact still.result
      have stuck : step ⟨mode, frames⟩ (unit '{') = none →
          ((SpecAsCode.Js.runFrom ⟨mode, frames⟩ (record ++ [unit ' '])).bind
            ParseState.result) = none := by
        intro stuck
        rw [shape, List.cons_append, runFrom_stuck _ stuck]
        rfl
      simp only [Option.bind_some]
      cases mode with
      | value => exact inner enclosed
      | firstItem =>
          have same : SpecAsCode.Js.runFrom ⟨.firstItem, frames⟩ (record ++ [unit ' ']) =
              SpecAsCode.Js.runFrom ⟨.value, frames⟩ (record ++ [unit ' ']) := by
            rw [shape, List.cons_append, runFrom_cons, runFrom_cons]
            rfl
          rw [same]
          exact inner enclosed
      | firstKey => exact stuck (by rfl)
      | key members => exact stuck (by rfl)
      | colon members key => exact stuck (by rfl)
      | done value => exact stuck (afterValue_open value frames)
      | string role escape read =>
          rw [shape, List.cons_append, List.cons_append, List.cons_append,
            runFrom_string_record _ low high]
          rfl
      | word value missing =>
          refine stuck ?_
          obtain ⟨-, letters⟩ := enclosed
          simp only [step]
          split
          · rfl
          · rw [if_neg]
            rintro rfl
            exact letters List.mem_cons_self
          · rw [if_neg]
            rintro rfl
            exact letters List.mem_cons_self
      | numeral read =>
          refine stuck ?_
          have ends : isNumeralUnit (unit '{') = false := by decide
          simp only [step, ends, Bool.false_eq_true, if_false, afterValue_open]
          cases readNumeral read <;> rfl

/-- Behind the text of an object a record does not make a text. -/
theorem ObjectText.append_record {text record : JsString} (object : ObjectText text)
    (recordText : RecordText record) : SpecAsCode.Js.parseJson (text ++ record) = none := by
  rw [SpecAsCode.Js.parseJson, List.append_assoc, runFrom_append]
  cases ran : SpecAsCode.Js.runFrom startState text with
  | none => rfl
  | some state =>
      obtain ⟨value, rfl⟩ := object.closed ran
      obtain ⟨letter, rest, shape, -⟩ := recordText.shape
      simp only [Option.bind_some]
      rw [shape, List.cons_append, runFrom_stuck _ (by exact afterValue_open value [])]
      rfl

end SpecAsCode.Js
