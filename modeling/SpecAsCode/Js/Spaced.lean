import SpecAsCode.Js.RoundTrip
import SpecAsCode.Text.JsonText

/-!
# Printing JSON with a gap

`JSON.stringify(value, null, gap)` for a positive gap, and what is read back from the
text.  A line starts with a margin, which grows by the gap inside of an array or an
object.
-/

namespace SpecAsCode.Js

open SpecAsCode.Text

/-- The start of a line with a given margin. -/
def gapBreak (margin : Nat) : JsString :=
  unit '\n' :: List.replicate (margin) (unit ' ')

/-- Texts on lines of their own, with commas between them. -/
def gapJoin (margin : Nat) : List JsString → JsString
  | [] => []
  | [text] => text
  | text :: next :: rest => text ++ unit ',' :: (gapBreak margin ++ gapJoin margin (next :: rest))

/-- What stands between the brackets of an array or an object. -/
def gapBlock (gap margin : Nat) (texts : List JsString) : JsString :=
  if texts = [] then
    []
  else
    gapBreak (margin + gap) ++ (gapJoin (margin + gap) texts ++ gapBreak margin)

mutual

/-- `JSON.stringify(value, null, gap)` with a given margin. -/
def JsValue.spaced (gap margin : Nat) : JsValue → JsString
  | .array items =>
      unit '[' :: (gapBlock gap margin (spacedItems gap (margin + gap) items) ++ [unit ']'])
  | .object members =>
      unit '{' :: (gapBlock gap margin (spacedMembers gap (margin + gap) members) ++ [unit '}'])
  | value => value.stringify

/-- The texts of the items of an array. -/
def spacedItems (gap margin : Nat) : List JsValue → List JsString
  | [] => []
  | item :: rest => item.spaced gap margin :: spacedItems gap margin rest

/-- The texts of the members of an object.  Undefined properties are left out. -/
def spacedMembers (gap margin : Nat) : Members → List JsString
  | [] => []
  | (key, value) :: rest =>
      if value.isUndefined then
        spacedMembers gap margin rest
      else
        (quote key ++ unit ':' :: unit ' ' :: value.spaced gap margin) ::
          spacedMembers gap margin rest

end

example : (JsValue.object [(js "a", .array [.null, .array []]), (js "b", .undefined)]).spaced 2 0 =
    js "\x7b\n  \"a\": [\n    null,\n    []\n  ]\n\x7d" := by
  decide

section Gap

variable {gap : Nat}

theorem JsValue.spaced_start (value : JsValue) (margin : Nat) :
    ∃ first rest, value.spaced gap margin = first :: rest ∧ startsValue first = true := by
  cases value with
  | array items => exact ⟨unit '[', _, rfl, by decide⟩
  | object members => exact ⟨unit '{', _, rfl, by decide⟩
  | undefined => exact JsValue.stringify_start .undefined
  | null => exact JsValue.stringify_start .null
  | bool value => exact JsValue.stringify_start (.bool value)
  | number value => exact JsValue.stringify_start (.number value)
  | string value => exact JsValue.stringify_start (.string value)

/-! ## Reading back -/

/-- White space is passed over in a state that it does not change. -/
theorem runFrom_gapBreak {state : ParseState}
    (blank : ∀ code, isJsonSpace code = true → step state code = some state) (margin : Nat)
    (tail : JsString) : runFrom state (gapBreak margin ++ tail) = runFrom state tail := by
  rw [gapBreak, List.cons_append, runFrom_step _ (blank (unit '\n') (by decide))]
  induction margin with
  | zero => rfl
  | succ count inductionHypothesis =>
      rw [List.replicate_succ, List.cons_append, runFrom_step _ (blank (unit ' ') (by decide)),
        inductionHypothesis]

/-- Reading the indented text of a value hands the value over. -/
def ReadsSpaced (gap : Nat) (value : JsValue) : Prop :=
  ∀ margin frames code rest, isNumeralUnit code = false →
    runFrom ⟨.value, frames⟩ (value.spaced gap margin ++ code :: rest) =
      runFrom ⟨.done value, frames⟩ (code :: rest)

private theorem runFrom_doneBreak (value : JsValue) (frames : List Frame) (margin : Nat)
    (tail : JsString) :
    runFrom ⟨.done value, frames⟩ (gapBreak margin ++ tail) = runFrom ⟨.done value, frames⟩ tail :=
  runFrom_gapBreak (fun code space => by simp only [step, afterValue, if_pos space]) margin tail

private theorem runFrom_spacedItems (item : JsValue) (rest before : List JsValue) (frames : List Frame)
    (margin outer : Nat) (tail : JsString) (readBack : ∀ value ∈ item :: rest, ReadsSpaced gap value) :
    runFrom ⟨.value, .array before :: frames⟩
        (gapJoin margin (spacedItems gap margin (item :: rest)) ++
          (gapBreak outer ++ unit ']' :: tail)) =
      runFrom ⟨.done (.array (before ++ item :: rest)), frames⟩ tail := by
  have comma : isNumeralUnit (unit ',') = false := by decide
  have lineFeed : isNumeralUnit (unit '\n') = false := by decide
  induction rest generalizing item before with
  | nil =>
      have opened : gapBreak outer ++ unit ']' :: tail =
          unit '\n' :: (List.replicate outer (unit ' ') ++ unit ']' :: tail) := rfl
      simp only [spacedItems, gapJoin]
      rw [opened, readBack item (by simp) _ _ _ _ lineFeed, ← opened, runFrom_doneBreak]
      exact runFrom_step tail (by rfl)
  | cons next rest inductionHypothesis =>
      have joined : gapJoin margin (spacedItems gap margin (item :: next :: rest)) ++
            (gapBreak outer ++ unit ']' :: tail) =
          item.spaced gap margin ++ unit ',' :: (gapBreak margin ++
            (gapJoin margin (spacedItems gap margin (next :: rest)) ++
              (gapBreak outer ++ unit ']' :: tail))) := by
        simp [spacedItems, gapJoin]
      rw [joined, readBack item (by simp) _ _ _ _ comma,
        @runFrom_step _ ⟨.value, .array (before ++ [item]) :: frames⟩ _ _ (by rfl),
        runFrom_gapBreak (fun code space => by simp only [step, if_pos space]),
        inductionHypothesis next (before ++ [item])
          fun value member => readBack value (List.mem_cons_of_mem _ member)]
      simp

private theorem runFrom_spacedMember (key : JsString) (value : JsValue) (members : Members)
    (frames : List Frame) (margin : Nat) (code : CodeUnit) (tail : JsString)
    (readBack : ReadsSpaced gap value) (ends : isNumeralUnit code = false) :
    runFrom ⟨.key members, frames⟩
        (quote key ++ unit ':' :: unit ' ' :: (value.spaced gap margin ++ code :: tail)) =
      runFrom ⟨.done value, .member members key :: frames⟩ (code :: tail) := by
  have text : quote key ++ unit ':' :: unit ' ' :: (value.spaced gap margin ++ code :: tail) =
      unit '"' :: (quoteUnits key ++
        unit '"' :: unit ':' :: unit ' ' :: (value.spaced gap margin ++ code :: tail)) := by
    simp [quote]
  rw [text, @runFrom_step _ ⟨.string (.key members) .none [], frames⟩ _ _ (by rfl),
    runFrom_quote,
    @runFrom_step _ ⟨.value, .member members key :: frames⟩ _ _ (by rfl),
    @runFrom_step _ ⟨.value, .member members key :: frames⟩ _ _ (by rfl),
    readBack _ _ _ _ ends]

private theorem runFrom_spacedMembers (member : JsString × JsValue) (rest before : Members)
    (frames : List Frame) (margin outer : Nat) (tail : JsString)
    (readBack : ∀ other ∈ member :: rest, ReadsSpaced gap other.2)
    (defined : ∀ other ∈ member :: rest, other.2.isUndefined = false) :
    runFrom ⟨.key before, frames⟩
        (gapJoin margin (spacedMembers gap margin (member :: rest)) ++
          (gapBreak outer ++ unit '}' :: tail)) =
      runFrom ⟨.done (.object ((member :: rest).foldl
        (fun out member => setProperty member.1 member.2 out) before)), frames⟩ tail := by
  have comma : isNumeralUnit (unit ',') = false := by decide
  have lineFeed : isNumeralUnit (unit '\n') = false := by decide
  induction rest generalizing member before with
  | nil =>
      have joined : gapJoin margin (spacedMembers gap margin [member]) ++
            (gapBreak outer ++ unit '}' :: tail) =
          quote member.1 ++ unit ':' :: unit ' ' :: (member.2.spaced gap margin ++
            unit '\n' :: (List.replicate outer (unit ' ') ++ unit '}' :: tail)) := by
        simp [spacedMembers, defined member (by simp), gapJoin, gapBreak]
      have closing : unit '\n' :: (List.replicate outer (unit ' ') ++ unit '}' :: tail) =
          gapBreak outer ++ unit '}' :: tail := rfl
      rw [joined, runFrom_spacedMember _ _ _ _ _ _ _ (readBack member (by simp)) lineFeed, closing,
        runFrom_doneBreak]
      exact runFrom_step tail (by rfl)
  | cons next rest inductionHypothesis =>
      have nonempty : spacedMembers gap margin (next :: rest) =
          (quote next.1 ++ unit ':' :: unit ' ' :: next.2.spaced gap margin) ::
            spacedMembers gap margin rest := by
        simp [spacedMembers, defined next (by simp)]
      have joined : gapJoin margin (spacedMembers gap margin (member :: next :: rest)) ++
            (gapBreak outer ++ unit '}' :: tail) =
          quote member.1 ++ unit ':' :: unit ' ' :: (member.2.spaced gap margin ++
            unit ',' :: (gapBreak margin ++ (gapJoin margin (spacedMembers gap margin (next :: rest)) ++
              (gapBreak outer ++ unit '}' :: tail)))) := by
        rw [spacedMembers, defined member (by simp), nonempty]
        simp [gapJoin]
      rw [joined, runFrom_spacedMember _ _ _ _ _ _ _ (readBack member (by simp)) comma,
        @runFrom_step _ ⟨.key (setProperty member.1 member.2 before), frames⟩ _ _ (by rfl),
        runFrom_gapBreak (fun code space => by simp only [step, if_pos space]),
        inductionHypothesis next _ (fun other found => readBack other (List.mem_cons_of_mem _ found))
          fun other found => defined other (List.mem_cons_of_mem _ found)]
      rfl

/-- Every value a JSON text denotes is read back from its indented text. -/
theorem readsSpaced_of_isJson (value : JsValue) : value.isJson = true → ReadsSpaced gap value := by
  induction value using JsValue.induction with
  | undefined => intro json; cases json
  | null => intro json margin; exact readBack_of_isJson .null json
  | bool value => intro json margin; exact readBack_of_isJson (.bool value) json
  | number value => intro json margin; exact readBack_of_isJson (.number value) json
  | string value => intro json margin; exact readBack_of_isJson (.string value) json
  | array items inductionHypothesis =>
      intro json margin frames code rest _
      rw [JsValue.isJson, itemsAreJson_iff] at json
      have text : (JsValue.array items).spaced gap margin ++ code :: rest =
          unit '[' :: (gapBlock gap margin (spacedItems gap (margin + gap) items) ++ unit ']' :: code :: rest) := by
        simp [JsValue.spaced]
      rw [text, @runFrom_step _ ⟨.firstItem, .array [] :: frames⟩ _ _ (by rfl)]
      cases items with
      | nil => exact runFrom_step _ (by rfl)
      | cons item others =>
          have opened : gapBlock gap margin (spacedItems gap (margin + gap) (item :: others)) ++
                unit ']' :: code :: rest =
              gapBreak (margin + gap) ++ (gapJoin (margin + gap) (spacedItems gap (margin + gap)
                (item :: others)) ++ (gapBreak margin ++ unit ']' :: code :: rest)) := by
            rw [gapBlock, if_neg (by simp [spacedItems])]
            simp
          obtain ⟨first, units, shape, start⟩ := item.spaced_start (margin + gap)
          have begun : ∃ tail, gapJoin (margin + gap) (spacedItems gap (margin + gap) (item :: others)) ++
              (gapBreak margin ++ unit ']' :: code :: rest) = first :: tail := by
            cases others with
            | nil => exact ⟨_, by rw [spacedItems, spacedItems, gapJoin, shape]; rfl⟩
            | cons next others =>
                exact ⟨_, by rw [spacedItems, spacedItems, gapJoin, shape]; rfl⟩
          obtain ⟨tail, begins⟩ := begun
          rw [opened, runFrom_gapBreak (fun code space => by simp only [step, if_pos space]), begins,
            runFrom_cons, step_firstItem start, ← runFrom_cons, ← begins,
            runFrom_spacedItems item others [] frames _ _ _
              fun value member => inductionHypothesis value member (json value member)]
          rfl
  | object members inductionHypothesis =>
      intro json margin frames code rest _
      rw [JsValue.isJson, Bool.and_eq_true, decide_eq_true_eq, membersAreJson_iff] at json
      obtain ⟨enumerated, json⟩ := json
      have text : (JsValue.object members).spaced gap margin ++ code :: rest =
          unit '{' :: (gapBlock gap margin (spacedMembers gap (margin + gap) members) ++
            unit '}' :: code :: rest) := by
        simp [JsValue.spaced]
      rw [text, @runFrom_step _ ⟨.firstKey, frames⟩ _ _ (by rfl)]
      cases members with
      | nil => exact runFrom_step _ (by rfl)
      | cons member others =>
          have defined : ∀ other ∈ member :: others, other.2.isUndefined = false :=
            fun other found => isUndefined_of_isJson (json other found)
          have texts : spacedMembers gap (margin + gap) (member :: others) =
              (quote member.1 ++ unit ':' :: unit ' ' :: member.2.spaced gap (margin + gap)) ::
                spacedMembers gap (margin + gap) others := by
            simp [spacedMembers, defined member (by simp)]
          have opened : gapBlock gap margin (spacedMembers gap (margin + gap) (member :: others)) ++
                unit '}' :: code :: rest =
              gapBreak (margin + gap) ++ (gapJoin (margin + gap) (spacedMembers gap (margin + gap)
                (member :: others)) ++ (gapBreak margin ++ unit '}' :: code :: rest)) := by
            rw [gapBlock, if_neg (by simp [texts])]
            simp
          have begun : ∃ tail, gapJoin (margin + gap) (spacedMembers gap (margin + gap)
              (member :: others)) ++ (gapBreak margin ++ unit '}' :: code :: rest) =
                unit '"' :: tail := by
            rw [texts]
            cases spacedMembers gap (margin + gap) others with
            | nil => exact ⟨_, rfl⟩
            | cons next texts => exact ⟨_, rfl⟩
          have read := runFrom_spacedMembers member others [] frames (margin + gap) margin (code :: rest)
            (fun other found => inductionHypothesis other found (json other found)) defined
          rw [foldl_setProperty (by simpa using enumerated), List.nil_append] at read
          obtain ⟨tail, begins⟩ := begun
          rw [opened, runFrom_gapBreak (fun code space => by simp only [step, if_pos space]),
            ← read, begins, runFrom_cons, runFrom_cons]
          rfl

/-- `JSON.parse` reads the indented text of a value back, at the end of which a line may
break. -/
theorem parseJson_spaced {value : JsValue} (json : value.isJson = true) :
    parseJson (value.spaced gap 0 ++ [unit '\n']) = some value := by
  have lineFeed : isNumeralUnit (unit '\n') = false := by decide
  have text : value.spaced gap 0 ++ [unit '\n'] ++ [unit ' '] =
      value.spaced gap 0 ++ unit '\n' :: [unit ' '] := by
    simp
  rw [parseJson, startState, text, readsSpaced_of_isJson value json 0 [] _ _ lineFeed]
  rfl

/-- `JSON.parse` reads the text of a value with a gap back. -/
theorem parseJson_spaced_end {value : JsValue} (json : value.isJson = true) :
    parseJson (value.spaced gap 0) = some value := by
  rw [parseJson, startState,
    readsSpaced_of_isJson value json 0 [] (unit ' ') [] (by decide)]
  rfl

/-! ## Octets -/

theorem wellFormed_gapBreak (margin : Nat) : isWellFormedText (gapBreak margin) = true := by
  refine isWellFormedText_cons (by decide) ?_
  induction margin with
  | zero => rfl
  | succ count inductionHypothesis =>
      rw [List.replicate_succ]
      exact isWellFormedText_cons (by decide) inductionHypothesis

theorem wellFormed_gapJoin {texts : List JsString} (margin : Nat)
    (wellFormed : ∀ text ∈ texts, isWellFormedText text = true) :
    isWellFormedText (gapJoin margin texts) = true := by
  fun_induction gapJoin margin texts with
  | case1 => rfl
  | case2 text => exact wellFormed text List.mem_cons_self
  | case3 text next rest inductionHypothesis =>
      refine isWellFormedText_append (wellFormed text List.mem_cons_self)
        (isWellFormedText_cons (by decide) (isWellFormedText_append (wellFormed_gapBreak margin) ?_))
      exact inductionHypothesis fun other member => wellFormed other (List.mem_cons_of_mem _ member)

theorem wellFormed_gapBlock {texts : List JsString} (margin : Nat)
    (wellFormed : ∀ text ∈ texts, isWellFormedText text = true) :
    isWellFormedText (gapBlock gap margin texts) = true := by
  rw [gapBlock]
  split
  next => rfl
  next =>
    exact isWellFormedText_append (wellFormed_gapBreak _) (isWellFormedText_append
      (wellFormed_gapJoin _ wellFormed) (wellFormed_gapBreak _))

/-- An indented text is well-formed. -/
theorem wellFormed_spaced (value : JsValue) :
    ∀ margin, isWellFormedText (value.spaced gap margin) = true := by
  induction value using JsValue.induction with
  | undefined => exact fun margin => (printed_stringify .undefined).wellFormed
  | null => exact fun margin => (printed_stringify .null).wellFormed
  | bool value => exact fun margin => (printed_stringify (.bool value)).wellFormed
  | number value => exact fun margin => (printed_stringify (.number value)).wellFormed
  | string value => exact fun margin => (printed_stringify (.string value)).wellFormed
  | array items inductionHypothesis =>
      intro margin
      have texts : ∀ text ∈ spacedItems gap (margin + gap) items, isWellFormedText text = true := by
        induction items with
        | nil => simp [spacedItems]
        | cons item rest itemsHypothesis =>
            rw [spacedItems]
            exact List.forall_mem_cons.mpr ⟨inductionHypothesis item List.mem_cons_self _,
              itemsHypothesis fun other member =>
                inductionHypothesis other (List.mem_cons_of_mem _ member)⟩
      exact isWellFormedText_cons (by decide) (isWellFormedText_append (wellFormed_gapBlock margin texts)
        (by decide))
  | object members inductionHypothesis =>
      intro margin
      have texts : ∀ text ∈ spacedMembers gap (margin + gap) members, isWellFormedText text = true := by
        induction members with
        | nil => simp [spacedMembers]
        | cons member rest membersHypothesis =>
            have later := membersHypothesis fun other found =>
              inductionHypothesis other (List.mem_cons_of_mem _ found)
            rw [spacedMembers]
            split
            · exact later
            · exact List.forall_mem_cons.mpr ⟨isWellFormedText_append
                (printed_quote member.1).wellFormed (isWellFormedText_cons (by decide)
                  (isWellFormedText_cons (by decide)
                    (inductionHypothesis member List.mem_cons_self _))), later⟩
      exact isWellFormedText_cons (by decide) (isWellFormedText_append (wellFormed_gapBlock margin texts)
        (by decide))

end Gap

end SpecAsCode.Js
