import SpecAsCode.Js.StringModes
import SpecAsCode.Js.TornText

/-!
# What a text can say

A text that starts with no bracket is no array and no object, and a text without back quotes
and backslashes says nothing with a back quote in it.
-/

namespace SpecAsCode.Js

/-- An array or an object. -/
def JsValue.isContainer : JsValue → Bool
  | .array _ => true
  | .object _ => true
  | _ => false

/-! ## Texts of scalars -/

/-- The machine reads a value that is no array and no object, and nothing around it. -/
def ParseState.Scalar (state : ParseState) : Prop :=
  state.frames = [] ∧
    match state.mode with
    | .done value => value.isContainer = false
    | .string .value _ _ => True
    | .word value _ => value.isContainer = false
    | .numeral _ => True
    | _ => False

theorem afterValue_scalar {value : JsValue} {code : CodeUnit} {next : ParseState}
    (scalar : value.isContainer = false) (stepped : afterValue value [] code = some next) :
    next.Scalar := by
  rw [afterValue] at stepped
  split at stepped
  · cases stepped
    exact ⟨rfl, scalar⟩
  · cases stepped

theorem ParseState.Scalar.step {state next : ParseState} {code : CodeUnit} (scalar : state.Scalar)
    (stepped : step state code = some next) : next.Scalar := by
  obtain ⟨mode, frames⟩ := state
  obtain ⟨rfl, reads⟩ := scalar
  cases mode with
  | done value => exact afterValue_scalar reads stepped
  | string role escape read =>
      cases role with
      | key members => cases reads
      | value =>
          obtain ⟨mode, moved, rfl⟩ := Option.map_eq_some_iff.mp stepped
          cases escape with
          | none =>
              simp only [stringStep] at moved
              split_ifs at moved <;> cases moved
              · exact ⟨rfl, rfl⟩
              · exact ⟨rfl, trivial⟩
              · exact ⟨rfl, trivial⟩
          | backslash =>
              simp only [stringStep] at moved
              split_ifs at moved
              · cases moved
                exact ⟨rfl, trivial⟩
              · obtain ⟨meant, -, rfl⟩ := Option.map_eq_some_iff.mp moved
                exact ⟨rfl, trivial⟩
          | hex missing value =>
              obtain ⟨digit, -, rfl⟩ := Option.map_eq_some_iff.mp moved
              split_ifs
              · exact ⟨rfl, trivial⟩
              · exact ⟨rfl, trivial⟩
  | word value missing =>
      cases missing with
      | nil => cases stepped
      | cons letter rest =>
          cases rest with
          | nil =>
              simp only [SpecAsCode.Js.step] at stepped
              split_ifs at stepped
              cases stepped
              exact ⟨rfl, reads⟩
          | cons =>
              simp only [SpecAsCode.Js.step] at stepped
              split_ifs at stepped
              cases stepped
              exact ⟨rfl, reads⟩
  | numeral read =>
      simp only [SpecAsCode.Js.step] at stepped
      split_ifs at stepped
      · cases stepped
        exact ⟨rfl, trivial⟩
      · obtain ⟨decimal, -, settled⟩ := Option.bind_eq_some_iff.mp stepped
        exact afterValue_scalar rfl settled
  | _ => cases reads

theorem ParseState.Scalar.runFrom {text : JsString} {state last : ParseState} (scalar : state.Scalar)
    (ran : runFrom state text = some last) : last.Scalar := by
  induction text generalizing state with
  | nil =>
      cases ran
      exact scalar
  | cons code text inductionHypothesis =>
      rw [runFrom_cons] at ran
      obtain ⟨next, stepped, rest⟩ := Option.bind_eq_some_iff.mp ran
      exact inductionHypothesis (scalar.step stepped) rest

theorem startValue_scalar {code : CodeUnit} {next : ParseState} (brace : code ≠ unit '\x7b')
    (bracket : code ≠ unit '[') (started : startValue [] code = some next) : next.Scalar := by
  rw [startValue, if_neg brace, if_neg bracket] at started
  split_ifs at started <;> cases started
  · exact ⟨rfl, trivial⟩
  · exact ⟨rfl, rfl⟩
  · exact ⟨rfl, rfl⟩
  · exact ⟨rfl, rfl⟩
  · exact ⟨rfl, trivial⟩

theorem isSpace_of_isJsonSpace {code : CodeUnit} (blank : isJsonSpace code = true) :
    isSpace code = true := by
  simp only [isJsonSpace, Bool.or_eq_true, beq_iff_eq] at blank
  simp only [isSpace, Bool.or_eq_true, Bool.and_eq_true, decide_eq_true_eq, beq_iff_eq]
  omega

/-- A text that starts with another code unit than a bracket is no array and no object. -/
theorem isContainer_of_start {code : CodeUnit} {text : JsString} {value : JsValue}
    (space : isSpace code = false) (brace : code ≠ unit '\x7b') (bracket : code ≠ unit '[')
    (parsed : parseJson (code :: text) = some value) : value.isContainer = false := by
  have solid : isJsonSpace code = false :=
    Bool.eq_false_iff.mpr fun blank => Bool.eq_false_iff.mp space (isSpace_of_isJsonSpace blank)
  rw [parseJson, List.cons_append, runFrom_cons] at parsed
  obtain ⟨last, ran, result⟩ := Option.bind_eq_some_iff.mp parsed
  obtain ⟨next, stepped, rest⟩ := Option.bind_eq_some_iff.mp ran
  simp only [step, startState, solid, if_neg Bool.false_ne_true] at stepped
  obtain ⟨closed, scalar⟩ := (startValue_scalar brace bracket stepped).runFrom rest
  obtain ⟨mode, frames⟩ := last
  cases closed
  cases mode <;> cases result
  exact scalar

/-! ## Texts without back quotes -/

/-- The text of a value has no back quote. -/
def JsValue.Silent (value : JsValue) : Prop :=
  unit '\u0060' ∉ value.stringify

theorem not_mem_quoteUnit {code : CodeUnit} (other : code ≠ unit '\u0060') :
    unit '\u0060' ∉ quoteUnit code := by
  have digit : ∀ digit < 16, hexUnit digit ≠ unit '\u0060' := by decide
  have bound := code.isLt
  rw [quoteUnit]
  split
  next letter short =>
    have letters : letter ≠ unit '\u0060' := by
      rintro rfl
      rw [shortEscape] at short
      split_ifs at short <;> exact absurd (Option.some.inj short) (by decide)
    simpa [letters.symm] using (by decide : unit '\u0060' ≠ unit '\\')
  next =>
    split_ifs
    · simp only [unicodeEscape, List.mem_cons, List.not_mem_nil, or_false, not_or]
      exact ⟨by decide, by decide, (digit _ (by omega)).symm, (digit _ (by omega)).symm,
        (digit _ (by omega)).symm, (digit _ (by omega)).symm⟩
    · simpa using other.symm

theorem not_mem_quoteUnits {text : JsString} (absent : unit '\u0060' ∉ text) :
    unit '\u0060' ∉ quoteUnits text := by
  fun_induction quoteUnits text with
  | case1 => exact List.not_mem_nil
  | case2 code => exact not_mem_quoteUnit fun same => absent (by simp [same])
  | case3 first second rest pair inductionHypothesis =>
      simp only [List.mem_cons, not_or] at absent ⊢
      exact ⟨absent.1, absent.2.1, inductionHypothesis absent.2.2⟩
  | case4 first second rest pair inductionHypothesis =>
      rw [List.mem_cons, not_or] at absent
      rw [List.mem_append, not_or]
      exact ⟨not_mem_quoteUnit (Ne.symm absent.1), inductionHypothesis absent.2⟩

theorem not_mem_quote {text : JsString} (absent : unit '\u0060' ∉ text) :
    unit '\u0060' ∉ quote text := by
  simp only [quote, List.mem_cons, List.mem_append, List.not_mem_nil, or_false, not_or]
  exact ⟨by decide, not_mem_quoteUnits absent, by decide⟩

theorem not_mem_commaJoin {texts : List JsString} (each : ∀ text ∈ texts, unit '\u0060' ∉ text) :
    unit '\u0060' ∉ commaJoin texts := by
  fun_induction commaJoin texts with
  | case1 => exact List.not_mem_nil
  | case2 text => exact each text List.mem_cons_self
  | case3 text next rest inductionHypothesis =>
      rw [List.forall_mem_cons] at each
      simp only [List.mem_append, List.mem_cons, not_or]
      exact ⟨each.1, by decide, inductionHypothesis each.2⟩

theorem JsValue.silent_array {items : List JsValue} (each : ∀ item ∈ items, item.Silent) :
    (JsValue.array items).Silent := by
  have texts : ∀ text ∈ stringifyItems items, unit '\u0060' ∉ text := by
    induction items with
    | nil => exact nofun
    | cons item rest inductionHypothesis =>
        rw [List.forall_mem_cons] at each
        exact List.forall_mem_cons.mpr ⟨each.1, inductionHypothesis each.2⟩
  simp only [Silent, stringify, List.mem_cons, List.mem_append, List.not_mem_nil, or_false, not_or]
  exact ⟨by decide, not_mem_commaJoin texts, by decide⟩

/-- The keys and the values have no back quote. -/
def SilentMembers (members : Members) : Prop :=
  ∀ member ∈ members, unit '\u0060' ∉ member.1 ∧ member.2.Silent

theorem JsValue.silent_object {members : Members} (each : SilentMembers members) :
    (JsValue.object members).Silent := by
  have texts : ∀ text ∈ stringifyMembers members, unit '\u0060' ∉ text := by
    induction members with
    | nil => exact nofun
    | cons member rest inductionHypothesis =>
        obtain ⟨key, value⟩ := member
        obtain ⟨⟨named, silent⟩, later⟩ := List.forall_mem_cons.mp each
        rw [stringifyMembers]
        split_ifs
        · exact inductionHypothesis later
        · refine List.forall_mem_cons.mpr ⟨?_, inductionHypothesis later⟩
          simp only [List.mem_append, List.mem_cons, not_or]
          exact ⟨not_mem_quote named, by decide, silent⟩
  simp only [Silent, stringify, List.mem_cons, List.mem_append, List.not_mem_nil, or_false, not_or]
  exact ⟨by decide, not_mem_commaJoin texts, by decide⟩

theorem JsValue.silent_number (value : Double) : (JsValue.number (.finite value)).Silent := by
  obtain ⟨first, rest, shape, start, numeral⟩ := value.name.text_shape
  simp only [Silent, stringify, shape, List.mem_cons, not_or]
  constructor
  · rintro rfl
    rcases start with minus | digit
    · exact absurd minus (by decide)
    · exact absurd digit (by decide)
  · intro member
    exact absurd (numeral _ member) (by decide)

theorem Decimal.silent_toNumber (decimal : Decimal) :
    (JsValue.number decimal.toNumber).Silent := by
  rw [Decimal.toNumber]
  split
  · exact (by decide : unit '\u0060' ∉ js "null")
  · exact JsValue.silent_number _

theorem SilentMembers.set {members : Members} (silent : SilentMembers members) {key : JsString}
    {value : JsValue} (named : unit '\u0060' ∉ key) (worth : value.Silent) :
    SilentMembers (setProperty key value members) := by
  intro member found
  rcases mem_setProperty found with rfl | older
  · exact ⟨named, worth⟩
  · exact silent member older

def Frame.Silent : Frame → Prop
  | .array items => ∀ item ∈ items, item.Silent
  | .member members key => SilentMembers members ∧ unit '\u0060' ∉ key

def StringRole.Silent : StringRole → Prop
  | .value => True
  | .key members => SilentMembers members

def Mode.Silent : Mode → Prop
  | .key members => SilentMembers members
  | .colon members name => SilentMembers members ∧ unit '\u0060' ∉ name
  | .done whole => whole.Silent
  | .string role escape read => role.Silent ∧ escape = .none ∧ unit '\u0060' ∉ read
  | .word meant _ => meant.Silent
  | _ => True

/-- Nothing that has been read has a back quote, and no escape is open. -/
structure ParseState.Silent (state : ParseState) : Prop where
  mode : state.mode.Silent
  frames : ∀ frame ∈ state.frames, frame.Silent

theorem startValue_silent {frames : List Frame} {code : CodeUnit} {next : ParseState}
    (silent : ∀ frame ∈ frames, frame.Silent) (started : startValue frames code = some next) :
    next.Silent := by
  rw [startValue] at started
  split_ifs at started <;> cases started
  · exact ⟨trivial, silent⟩
  · exact ⟨trivial, List.forall_mem_cons.mpr ⟨List.forall_mem_nil _, silent⟩⟩
  · exact ⟨⟨trivial, rfl, List.not_mem_nil⟩, silent⟩
  · exact ⟨(by decide : unit '\u0060' ∉ js "true"), silent⟩
  · exact ⟨(by decide : unit '\u0060' ∉ js "false"), silent⟩
  · exact ⟨(by decide : unit '\u0060' ∉ js "null"), silent⟩
  · exact ⟨trivial, silent⟩

theorem afterValue_silent {value : JsValue} {frames : List Frame} {code : CodeUnit}
    {next : ParseState} (worth : value.Silent) (silent : ∀ frame ∈ frames, frame.Silent)
    (stepped : afterValue value frames code = some next) : next.Silent := by
  unfold afterValue at stepped
  split at stepped
  · cases stepped
    exact ⟨worth, silent⟩
  · cases frames with
    | nil => cases stepped
    | cons frame outer =>
        obtain ⟨inner, rest⟩ := List.forall_mem_cons.mp silent
        cases frame with
        | array items =>
            have longer : ∀ item ∈ items ++ [value], item.Silent := by
              simpa [or_imp, forall_and] using ⟨inner, worth⟩
            simp only at stepped
            split_ifs at stepped <;> cases stepped
            · exact ⟨trivial, List.forall_mem_cons.mpr ⟨longer, rest⟩⟩
            · exact ⟨JsValue.silent_array longer, rest⟩
        | member members key =>
            have longer := inner.1.set inner.2 worth
            simp only at stepped
            split_ifs at stepped <;> cases stepped
            · exact ⟨longer, rest⟩
            · exact ⟨JsValue.silent_object longer, rest⟩

theorem ParseState.Silent.step {state next : ParseState} {code : CodeUnit} (silent : state.Silent)
    (plain : ¬ isForeign code) (stepped : step state code = some next) : next.Silent := by
  obtain ⟨mode, frames⟩ := state
  obtain ⟨here, outer⟩ := silent
  rw [isForeign, not_or] at plain
  cases mode with
  | value =>
      simp only [SpecAsCode.Js.step] at stepped
      split_ifs at stepped
      · cases stepped
        exact ⟨here, outer⟩
      · exact startValue_silent outer stepped
  | firstItem =>
      simp only [SpecAsCode.Js.step] at stepped
      split_ifs at stepped
      · cases stepped
        exact ⟨here, outer⟩
      · cases stepped
        exact ⟨JsValue.silent_array (List.forall_mem_nil _), fun frame member => outer frame (List.mem_of_mem_tail member)⟩
      · exact startValue_silent outer stepped
  | firstKey =>
      simp only [SpecAsCode.Js.step] at stepped
      split_ifs at stepped <;> cases stepped
      · exact ⟨here, outer⟩
      · exact ⟨JsValue.silent_object (List.forall_mem_nil _), outer⟩
      · exact ⟨⟨List.forall_mem_nil _, rfl, List.not_mem_nil⟩, outer⟩
  | key members =>
      simp only [SpecAsCode.Js.step] at stepped
      split_ifs at stepped <;> cases stepped
      · exact ⟨here, outer⟩
      · exact ⟨⟨here, rfl, List.not_mem_nil⟩, outer⟩
  | colon members key =>
      simp only [SpecAsCode.Js.step] at stepped
      split_ifs at stepped <;> cases stepped
      · exact ⟨here, outer⟩
      · exact ⟨trivial, List.forall_mem_cons.mpr ⟨here, outer⟩⟩
  | done value => exact afterValue_silent here outer stepped
  | string role escape read =>
      obtain ⟨worth, rfl, absent⟩ := here
      obtain ⟨mode, moved, rfl⟩ := Option.map_eq_some_iff.mp stepped
      simp only [stringStep, if_neg plain.2] at moved
      split_ifs at moved <;> cases moved
      · cases role with
        | value => exact ⟨not_mem_quote absent, outer⟩
        | key members => exact ⟨⟨worth, absent⟩, outer⟩
      · exact ⟨⟨worth, rfl, by simpa [absent] using plain.1 ∘ Eq.symm⟩, outer⟩
  | word value missing =>
      cases missing with
      | nil => cases stepped
      | cons letter rest =>
          cases rest with
          | nil =>
              simp only [SpecAsCode.Js.step] at stepped
              split_ifs at stepped
              cases stepped
              exact ⟨here, outer⟩
          | cons =>
              simp only [SpecAsCode.Js.step] at stepped
              split_ifs at stepped
              cases stepped
              exact ⟨here, outer⟩
  | numeral read =>
      simp only [SpecAsCode.Js.step] at stepped
      split_ifs at stepped
      · cases stepped
        exact ⟨trivial, outer⟩
      · obtain ⟨decimal, -, settled⟩ := Option.bind_eq_some_iff.mp stepped
        exact afterValue_silent (decimal.silent_toNumber) outer settled

theorem ParseState.Silent.runFrom {text : JsString} {state last : ParseState} (silent : state.Silent)
    (plain : ∀ code ∈ text, ¬ isForeign code) (ran : runFrom state text = some last) :
    last.Silent := by
  induction text generalizing state with
  | nil =>
      cases ran
      exact silent
  | cons code text inductionHypothesis =>
      rw [List.forall_mem_cons] at plain
      rw [runFrom_cons] at ran
      obtain ⟨next, stepped, rest⟩ := Option.bind_eq_some_iff.mp ran
      exact inductionHypothesis (silent.step plain.1 stepped) plain.2 rest

/-- A text without back quotes and backslashes says nothing with a back quote. -/
theorem silent_of_parseJson {text : JsString} {value : JsValue}
    (plain : ∀ code ∈ text, ¬ isForeign code) (parsed : parseJson text = some value) :
    value.Silent := by
  obtain ⟨last, ran, result⟩ := Option.bind_eq_some_iff.mp parsed
  have start : startState.Silent := ⟨trivial, nofun⟩
  have silent := start.runFrom (by
    intro code member
    rcases List.mem_append.mp member with inside | blank
    · exact plain code inside
    · rw [List.mem_singleton.mp blank]
      exact (by decide : ¬ (unit ' ' = unit '\u0060' ∨ unit ' ' = unit '\\'))) ran
  obtain ⟨mode, frames⟩ := last
  cases mode with
  | done other =>
      cases frames <;> cases result
      exact silent.mode
  | _ => cases result

/-! ## A part of a string that is a text of its own -/

/-- Where one reading is outside of strings the other one is inside. -/
def Opposite (first second : Place) : Prop :=
  (first = .outside ∧ second = .plain) ∨ (first = .plain ∧ second = .outside)

theorem opposite_step {state other next after : ParseState} {code : CodeUnit}
    (spelled : state.Spelled) (opposite : Opposite state.place other.place) (known : other.Spelled)
    (stepped : step state code = some next) (moved : step other code = some after) :
    ¬ isForeign code ∧ Opposite next.place after.place := by
  -- one of the two readings is in a string, the other one is not
  have turn : ∀ {outer inner following within : ParseState}, outer.Spelled →
      outer.place = .outside → inner.place = .plain → step outer code = some following →
      step inner code = some within → ¬ isForeign code ∧
        ((following.place = .plain ∧ within.place = .outside) ∨
          (following.place = .outside ∧ within.place = .plain)) := by
    intro outer inner following within spelled outside plain stepped moved
    obtain ⟨foreign, -, place⟩ := step_outside spelled outside stepped
    obtain ⟨-, ends, stays, -⟩ := step_inside plain moved
    refine ⟨foreign, ?_⟩
    by_cases quote : code = unit '"'
    · rw [if_pos quote] at place
      exact Or.inl ⟨place, ends quote⟩
    · rw [if_neg quote] at place
      exact Or.inr ⟨place, (stays quote fun same => foreign (Or.inr same)).2⟩
  rcases opposite with ⟨outside, plain⟩ | ⟨plain, outside⟩
  · obtain ⟨foreign, places⟩ := turn spelled outside plain stepped moved
    exact ⟨foreign, places.symm⟩
  · obtain ⟨foreign, places⟩ := turn known outside plain moved stepped
    exact ⟨foreign, places.imp And.symm And.symm⟩

/-- What is read both from outside of strings and from inside of one has no code unit that only
strings have. -/
theorem opposite_run {text : JsString} {state other last final : ParseState}
    (spelled : state.Spelled) (known : other.Spelled)
    (opposite : Opposite state.place other.place) (ran : runFrom state text = some last)
    (read : runFrom other text = some final) : ∀ code ∈ text, ¬ isForeign code := by
  induction text generalizing state other with
  | nil => exact nofun
  | cons code text inductionHypothesis =>
      rw [runFrom_cons] at ran read
      obtain ⟨next, stepped, rest⟩ := Option.bind_eq_some_iff.mp ran
      obtain ⟨after, moved, remaining⟩ := Option.bind_eq_some_iff.mp read
      obtain ⟨plain, places⟩ := opposite_step spelled opposite known stepped moved
      exact List.forall_mem_cons.mpr ⟨plain, inductionHypothesis (step_spelled spelled stepped)
        (step_spelled known moved) places rest remaining⟩

end SpecAsCode.Js
