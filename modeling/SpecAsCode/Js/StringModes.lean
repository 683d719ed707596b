import SpecAsCode.Js.RoundTrip
import SpecAsCode.Js.Trim

/-!
# Inside and outside of strings

Where the machine of `JSON.parse` is in a string literal, and what that says about the code
units it reads.
-/

namespace SpecAsCode.Js

/-- Where the machine is: outside of strings, in a string, or behind a backslash in one. -/
inductive Place where
  | outside
  | plain
  | escaped
  deriving DecidableEq

def ParseState.place (state : ParseState) : Place :=
  match state.mode with
  | .string _ .none _ => .plain
  | .string _ _ _ => .escaped
  | _ => .outside

/-- The word that is being read is one of the three that JSON has. -/
def ParseState.Spelled (state : ParseState) : Prop :=
  ∀ value missing, state.mode = .word value missing → ∀ letter ∈ missing, letter ∈ js "aelrsu"

/-- The code units that neither stand outside of strings nor end one. -/
def isForeign (code : CodeUnit) : Prop :=
  code = unit '\u0060' ∨ code = unit '\\'

theorem ne_of_foreign {code : CodeUnit} (foreign : isForeign code) :
    startsValue code = false ∧ isJsonSpace code = false ∧ isNumeralUnit code = false ∧
      code ≠ unit '"' ∧ code ≠ unit ',' ∧ code ≠ unit ':' ∧ code ≠ unit ']' ∧ code ≠ unit '}' ∧
      code ∉ js "aelrsu" := by
  rcases foreign with rfl | rfl
  · decide
  · decide

theorem startValue_foreign {code : CodeUnit} (foreign : isForeign code) (frames : List Frame) :
    startValue frames code = none := by
  rcases foreign with rfl | rfl
  · rfl
  · rfl

theorem afterValue_foreign {code : CodeUnit} (foreign : isForeign code) (value : JsValue)
    (frames : List Frame) : afterValue value frames code = none := by
  obtain ⟨-, space, -, -, comma, -, bracket, brace, -⟩ := ne_of_foreign foreign
  cases frames with
  | nil => simp [afterValue, space]
  | cons frame outer =>
      cases frame with
      | array items => simp [afterValue, space, comma, bracket]
      | member members key => simp [afterValue, space, comma, brace]

/-- A code unit of a string is not read outside of strings. -/
theorem step_foreign {state : ParseState} (spelled : state.Spelled) (outside : state.place = .outside)
    {code : CodeUnit} (foreign : isForeign code) : step state code = none := by
  obtain ⟨-, space, numeral, quote, -, colon, bracket, brace, letter⟩ := ne_of_foreign foreign
  obtain ⟨mode, frames⟩ := state
  cases mode with
  | value => simp [step, space, startValue_foreign foreign]
  | firstItem => simp [step, space, bracket, startValue_foreign foreign]
  | firstKey => simp [step, space, brace, quote]
  | key members => simp [step, space, quote]
  | colon members key => simp [step, space, colon]
  | done value => exact afterValue_foreign foreign value frames
  | string role escape read => cases escape <;> cases outside
  | word value missing =>
      have other : ∀ next ∈ missing, code ≠ next := by
        rintro next member rfl
        exact letter (spelled value missing rfl code member)
      cases missing with
      | nil => rfl
      | cons next rest =>
          have different := other next List.mem_cons_self
          cases rest with
          | nil => simp [step, different]
          | cons => simp [step, different]
  | numeral read =>
      simp only [step, numeral, if_neg Bool.false_ne_true, afterValue_foreign foreign]
      cases readNumeral read <;> rfl

/-! ## What a code unit does to the place -/

theorem spelled_word {value : JsValue} {missing : JsString} {frames : List Frame}
    (letters : (missing.all fun letter => letter ∈ js "aelrsu") = true) :
    (⟨.word value missing, frames⟩ : ParseState).Spelled := by
  intro other rest same letter member
  cases same
  simpa using List.all_eq_true.mp letters letter member

/-- The machine is in the middle of a word. -/
def Mode.readsWord : Mode → Bool
  | .word _ _ => true
  | _ => false

/-- A state that reads no word. -/
theorem spelled_of_ne {state : ParseState} (other : state.mode.readsWord = false) :
    state.Spelled := by
  intro value missing same
  rw [same] at other
  cases other

theorem startValue_place {frames : List Frame} {code : CodeUnit} {next : ParseState}
    (started : startValue frames code = some next) :
    next.Spelled ∧ next.place = if code = unit '"' then .plain else .outside := by
  rw [startValue] at started
  split_ifs at started with brace bracket quote true false null numeral
  · cases started
    exact ⟨spelled_of_ne rfl, by rw [brace]; rfl⟩
  · cases started
    exact ⟨spelled_of_ne rfl, by rw [bracket]; rfl⟩
  · cases started
    exact ⟨spelled_of_ne rfl, by rw [if_pos quote]; rfl⟩
  · cases started
    exact ⟨spelled_word (by decide), by rw [if_neg quote]; rfl⟩
  · cases started
    exact ⟨spelled_word (by decide), by rw [if_neg quote]; rfl⟩
  · cases started
    exact ⟨spelled_word (by decide), by rw [if_neg quote]; rfl⟩
  · cases started
    exact ⟨spelled_of_ne rfl, by rw [if_neg quote]; rfl⟩

theorem afterValue_place {value : JsValue} {frames : List Frame} {code : CodeUnit} {next : ParseState}
    (stepped : afterValue value frames code = some next) :
    next.Spelled ∧ next.place = if code = unit '"' then .plain else .outside := by
  have quote : code ≠ unit '"' := by
    rintro rfl
    cases frames with
    | nil => cases stepped
    | cons frame outer => cases frame <;> cases stepped
  rw [if_neg quote]
  unfold afterValue at stepped
  split at stepped
  · cases stepped
    exact ⟨spelled_of_ne rfl, rfl⟩
  · cases frames with
    | nil => cases stepped
    | cons frame outer =>
        cases frame with
        | array items =>
            simp only at stepped
            split_ifs at stepped <;> cases stepped <;> exact ⟨spelled_of_ne rfl, rfl⟩
        | member members key =>
            simp only at stepped
            split_ifs at stepped <;> cases stepped <;> exact ⟨spelled_of_ne rfl, rfl⟩

/-- Outside of strings the machine reads no code unit of a string, and only a quotation mark
leads into one. -/
theorem step_outside {state next : ParseState} {code : CodeUnit} (spelled : state.Spelled)
    (outside : state.place = .outside) (stepped : step state code = some next) :
    ¬ isForeign code ∧ next.Spelled ∧
      next.place = if code = unit '"' then .plain else .outside := by
  refine ⟨fun foreign => ?_, ?_⟩
  · rw [step_foreign spelled outside foreign] at stepped
    cases stepped
  have unquoted : ∀ {letter : CodeUnit}, isJsonSpace letter = true → letter ≠ unit '"' := by
    rintro letter space rfl
    cases space
  obtain ⟨mode, frames⟩ := state
  cases mode with
  | value =>
      simp only [step] at stepped
      split_ifs at stepped with space
      · cases stepped
        exact ⟨spelled, by rw [if_neg (unquoted space)]; rfl⟩
      · exact startValue_place stepped
  | firstItem =>
      simp only [step] at stepped
      split_ifs at stepped with space close
      · cases stepped
        exact ⟨spelled, by rw [if_neg (unquoted space)]; rfl⟩
      · cases stepped
        exact ⟨spelled_of_ne rfl, by rw [close]; rfl⟩
      · exact startValue_place stepped
  | firstKey =>
      simp only [step] at stepped
      split_ifs at stepped with space close quote
      · cases stepped
        exact ⟨spelled, by rw [if_neg (unquoted space)]; rfl⟩
      · cases stepped
        exact ⟨spelled_of_ne rfl, by rw [close]; rfl⟩
      · cases stepped
        exact ⟨spelled_of_ne rfl, by rw [if_pos quote]; rfl⟩
  | key members =>
      simp only [step] at stepped
      split_ifs at stepped with space quote
      · cases stepped
        exact ⟨spelled, by rw [if_neg (unquoted space)]; rfl⟩
      · cases stepped
        exact ⟨spelled_of_ne rfl, by rw [if_pos quote]; rfl⟩
  | colon members key =>
      simp only [step] at stepped
      split_ifs at stepped with space colon
      · cases stepped
        exact ⟨spelled, by rw [if_neg (unquoted space)]; rfl⟩
      · cases stepped
        exact ⟨spelled_of_ne rfl, by rw [colon]; rfl⟩
  | done value => exact afterValue_place stepped
  | string role escape read => cases escape <;> cases outside
  | word value missing =>
      have quote : unit '"' ∉ js "aelrsu" := by decide
      have letters := spelled value missing rfl
      cases missing with
      | nil => cases stepped
      | cons letter rest =>
          have other : letter ≠ unit '"' := by
            rintro rfl
            exact quote (letters _ List.mem_cons_self)
          cases rest with
          | nil =>
              simp only [step] at stepped
              split_ifs at stepped with same
              cases stepped
              exact ⟨spelled_of_ne rfl, by rw [same, if_neg other]; rfl⟩
          | cons =>
              simp only [step] at stepped
              split_ifs at stepped with same
              cases stepped
              refine ⟨?_, by rw [same, if_neg other]; rfl⟩
              intro _ _ word letter member
              cases word
              exact letters letter (List.mem_cons_of_mem _ member)
  | numeral read =>
      simp only [step] at stepped
      split_ifs at stepped with numeral
      · cases stepped
        refine ⟨spelled_of_ne rfl, ?_⟩
        rw [if_neg]
        · rfl
        · rintro rfl
          cases numeral
      · obtain ⟨decimal, -, settled⟩ := Option.bind_eq_some_iff.mp stepped
        exact afterValue_place settled

/-- In a string the machine goes on reading until a quotation mark that is not escaped. -/
theorem step_inside {state next : ParseState} {code : CodeUnit} (inside : state.place = .plain)
    (stepped : step state code = some next) :
    next.Spelled ∧ (code = unit '"' → next.place = .outside) ∧
      (code ≠ unit '"' → code ≠ unit '\\' → 32 ≤ code.val ∧ next.place = .plain) ∧
      (code = unit '\\' → next.place = .escaped) := by
  obtain ⟨mode, frames⟩ := state
  cases mode with
  | string role escape read =>
      cases escape with
      | none =>
          simp only [step, stringStep] at stepped
          obtain ⟨mode, moved, rfl⟩ := Option.map_eq_some_iff.mp stepped
          split_ifs at moved with quote backslash control
          · cases moved
            refine ⟨?_, fun _ => ?_, fun other => absurd quote other, fun other => ?_⟩
            · cases role <;> exact spelled_of_ne rfl
            · cases role <;> rfl
            · rw [quote] at other
              exact absurd other (by decide)
          · cases moved
            exact ⟨spelled_of_ne rfl, fun other => absurd other quote,
              fun _ other => absurd backslash other, fun _ => rfl⟩
          · cases moved
            exact ⟨spelled_of_ne rfl, fun other => absurd other quote,
              fun _ _ => ⟨Nat.le_of_not_lt control, rfl⟩, fun other => absurd other backslash⟩
      | backslash => cases inside
      | hex => cases inside
  | _ => cases inside

/-- Behind a backslash the machine stays in the string, and it reads no fence there. -/
theorem step_escaped {state next : ParseState} {code : CodeUnit} (escaped : state.place = .escaped)
    (stepped : step state code = some next) :
    next.Spelled ∧ next.place ≠ .outside ∧ code ≠ unit '\u0060' := by
  obtain ⟨mode, frames⟩ := state
  cases mode with
  | string role escape read =>
      cases escape with
      | none => cases escaped
      | backslash =>
          have fence : code ≠ unit '\u0060' := by
            rintro rfl
            cases stepped
          simp only [step, stringStep] at stepped
          obtain ⟨mode, moved, rfl⟩ := Option.map_eq_some_iff.mp stepped
          split_ifs at moved
          · cases moved
            exact ⟨spelled_of_ne rfl, (fun outside => by cases outside), fence⟩
          · obtain ⟨meant, -, rfl⟩ := Option.map_eq_some_iff.mp moved
            exact ⟨spelled_of_ne rfl, (fun outside => by cases outside), fence⟩
      | hex missing value =>
          have fence : code ≠ unit '\u0060' := by
            rintro rfl
            cases stepped
          simp only [step, stringStep] at stepped
          obtain ⟨mode, moved, rfl⟩ := Option.map_eq_some_iff.mp stepped
          obtain ⟨digit, -, rfl⟩ := Option.map_eq_some_iff.mp moved
          split_ifs
          · exact ⟨spelled_of_ne rfl, (fun outside => by cases outside), fence⟩
          · exact ⟨spelled_of_ne rfl, (fun outside => by cases outside), fence⟩
  | _ => cases escaped

theorem step_spelled {state next : ParseState} {code : CodeUnit} (spelled : state.Spelled)
    (stepped : step state code = some next) : next.Spelled := by
  cases place : state.place with
  | outside => exact (step_outside spelled place stepped).2.1
  | plain => exact (step_inside place stepped).1
  | escaped => exact (step_escaped place stepped).1

/-! ## Texts -/

theorem spelled_startState : startState.Spelled :=
  spelled_of_ne rfl

theorem runFrom_spelled {text : JsString} {state last : ParseState} (spelled : state.Spelled)
    (ran : runFrom state text = some last) : last.Spelled := by
  induction text generalizing state with
  | nil =>
      cases ran
      exact spelled
  | cons code text inductionHypothesis =>
      rw [runFrom_cons] at ran
      obtain ⟨next, stepped, rest⟩ := Option.bind_eq_some_iff.mp ran
      exact inductionHypothesis (step_spelled spelled stepped) rest

/-- Without quotation marks the machine stays outside of strings. -/
theorem runFrom_outside {text : JsString} {state last : ParseState} (spelled : state.Spelled)
    (outside : state.place = .outside) (quotes : unit '"' ∉ text)
    (ran : runFrom state text = some last) : last.place = .outside := by
  induction text generalizing state with
  | nil =>
      cases ran
      exact outside
  | cons code text inductionHypothesis =>
      rw [runFrom_cons] at ran
      obtain ⟨next, stepped, rest⟩ := Option.bind_eq_some_iff.mp ran
      rw [List.mem_cons, not_or] at quotes
      obtain ⟨-, known, place⟩ := step_outside spelled outside stepped
      rw [if_neg (Ne.symm quotes.1)] at place
      exact inductionHypothesis known place quotes.2 rest

/-- Without quotation marks and backslashes the machine stays in a string, which has no control
characters. -/
theorem runFrom_inside {text : JsString} {state last : ParseState} (inside : state.place = .plain)
    (quotes : unit '"' ∉ text) (backslashes : unit '\\' ∉ text)
    (ran : runFrom state text = some last) :
    last.place = .plain ∧ ∀ code ∈ text, 32 ≤ code.val := by
  induction text generalizing state with
  | nil =>
      cases ran
      exact ⟨inside, List.forall_mem_nil _⟩
  | cons code text inductionHypothesis =>
      rw [runFrom_cons] at ran
      obtain ⟨next, stepped, rest⟩ := Option.bind_eq_some_iff.mp ran
      rw [List.mem_cons, not_or] at quotes backslashes
      obtain ⟨printable, place⟩ := (step_inside inside stepped).2.2.1 (Ne.symm quotes.1)
        (Ne.symm backslashes.1)
      obtain ⟨here, later⟩ := inductionHypothesis place quotes.2 backslashes.2 rest
      exact ⟨here, List.forall_mem_cons.mpr ⟨printable, later⟩⟩

/-- A back quote stands in a string. -/
theorem inside_of_backquote {state next : ParseState} (spelled : state.Spelled)
    (stepped : step state (unit '\u0060') = some next) : state.place = .plain := by
  cases place : state.place with
  | outside => exact absurd (Or.inl rfl) (step_outside spelled place stepped).1
  | plain => rfl
  | escaped => exact absurd rfl (step_escaped place stepped).2.2

/-- A line that starts with a fence is no part of a JSON text. -/
theorem runFrom_fencedLine {state : ParseState} (spelled : state.Spelled) {line : JsString}
    (quotes : unit '"' ∉ line) (backslashes : unit '\\' ∉ line) (rest : JsString) :
    runFrom state (unit '\u0060' :: (line ++ unit '\n' :: rest)) = none := by
  cases ran : runFrom state (unit '\u0060' :: (line ++ unit '\n' :: rest)) with
  | none => rfl
  | some last =>
      have whole := ran
      rw [runFrom_cons] at whole
      obtain ⟨next, stepped, -⟩ := Option.bind_eq_some_iff.mp whole
      have inside := inside_of_backquote spelled stepped
      rw [show unit '\u0060' :: (line ++ unit '\n' :: rest) =
        (unit '\u0060' :: (line ++ [unit '\n'])) ++ rest by simp, runFrom_append] at ran
      obtain ⟨middle, first, -⟩ := Option.bind_eq_some_iff.mp ran
      have absent : ∀ letter, letter ≠ unit '\u0060' → letter ≠ unit '\n' → letter ∉ line →
          letter ∉ unit '\u0060' :: (line ++ [unit '\n']) := by
        intro letter fence ending missing
        simp only [List.mem_cons, List.mem_append, List.not_mem_nil, or_false, not_or]
        exact ⟨fence, missing, ending⟩
      have printable := (runFrom_inside inside (absent _ (by decide) (by decide) quotes)
        (absent _ (by decide) (by decide) backslashes) first).2 (unit '\n') (by simp)
      exact absurd printable (by decide)

theorem startValue_space {code : CodeUnit} (space : isSpace code = true) (frames : List Frame) :
    startValue frames code = none := by
  have other : ∀ letter, isSpace letter = false → code ≠ letter := by
    rintro letter solid rfl
    rw [space] at solid
    cases solid
  have digit : (digitOf code).isSome = false := by
    rw [digitOf]
    split_ifs with bounds
    · rw [isSpace] at space
      simp only [Bool.or_eq_true, Bool.and_eq_true, decide_eq_true_eq, beq_iff_eq] at space
      omega
    · rfl
  simp [startValue, other (unit '\x7b') (by decide), other (unit '[') (by decide),
    other (unit '"') (by decide), other (unit 't') (by decide), other (unit 'f') (by decide),
    other (unit 'n') (by decide), other (unit '-') (by decide), digit]

/-- White space in front of a text is passed over, or refused. -/
theorem runFrom_lead {lead : JsString} {state : ParseState}
    (spaces : ∀ code ∈ lead, isSpace code = true) (ran : runFrom startState lead = some state) :
    state = startState := by
  induction lead with
  | nil =>
      cases ran
      rfl
  | cons code lead inductionHypothesis =>
      rw [List.forall_mem_cons] at spaces
      rw [runFrom_cons] at ran
      obtain ⟨next, stepped, rest⟩ := Option.bind_eq_some_iff.mp ran
      have same : next = startState := by
        simp only [step, startState] at stepped
        split_ifs at stepped with space
        · exact (Option.some.inj stepped).symm
        · rw [startValue_space spaces.1] at stepped
          cases stepped
      rw [same] at rest
      exact inductionHypothesis spaces.2 rest

/-- A text that breaks off in a string is no JSON text, also without the white space around. -/
theorem parseJson_trim_of_inside {text : JsString} {state : ParseState}
    (ran : runFrom startState text = some state) (inside : state.place ≠ .outside) :
    parseJson (trim text) = none := by
  obtain ⟨lead, trail, shape, leads, trails, -, -⟩ := exists_trim text
  cases parsed : parseJson (trim text) with
  | none => rfl
  | some value =>
      rw [shape, List.append_assoc, runFrom_append] at ran
      obtain ⟨first, started, ran⟩ := Option.bind_eq_some_iff.mp ran
      rw [runFrom_lead leads started, runFrom_append] at ran
      obtain ⟨middle, read, ran⟩ := Option.bind_eq_some_iff.mp ran
      have spelled := runFrom_spelled spelled_startState read
      rw [parseJson, runFrom_append, read] at parsed
      obtain ⟨last, ended, result⟩ := Option.bind_eq_some_iff.mp parsed
      rw [Option.bind_some, runFrom_cons] at ended
      obtain ⟨other, stepped, same⟩ := Option.bind_eq_some_iff.mp ended
      cases same
      -- the blank that completes a numeral does not end a string
      have complete : last.place = .outside := by
        obtain ⟨mode, frames⟩ := last
        cases mode with
        | string => cases result
        | _ => rfl
      have outside : middle.place = .outside := by
        cases place : middle.place with
        | outside => rfl
        | plain =>
            have stays := ((step_inside place stepped).2.2.1 (by decide) (by decide)).2
            rw [complete] at stays
            cases stays
        | escaped => exact absurd complete (step_escaped place stepped).2.1
      have quotes : unit '"' ∉ trail := fun member => absurd (trails _ member) (by decide)
      exact absurd (runFrom_outside spelled outside quotes ran) inside

end SpecAsCode.Js
