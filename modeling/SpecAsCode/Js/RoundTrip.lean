import SpecAsCode.Js.Parse

/-!
# Parsing what was printed

The machine of `JSON.parse` reads the text of a value back: after the text it is in
the state it would reach by being handed the value.
-/

namespace SpecAsCode.Js

/-! ## String literals -/

theorem shortValue_shortEscape {code letter : CodeUnit} (short : shortEscape code = some letter) :
    letter ≠ unit 'u' ∧ shortValue letter = some code := by
  have named : ∀ value : Nat, ∀ bound : value < 65536, code.val = value →
      code = (⟨value, bound⟩ : CodeUnit) := fun value bound same => Fin.ext same
  rw [shortEscape] at short
  split_ifs at short with quotation backslash eight twelve ten thirteen nine
  · cases short; subst quotation; decide
  · cases short; subst backslash; decide
  · cases short; rw [named 8 (by omega) eight]; exact ⟨by decide, rfl⟩
  · cases short; rw [named 12 (by omega) twelve]; exact ⟨by decide, rfl⟩
  · cases short; rw [named 10 (by omega) ten]; exact ⟨by decide, rfl⟩
  · cases short; rw [named 13 (by omega) thirteen]; exact ⟨by decide, rfl⟩
  · cases short; rw [named 9 (by omega) nine]; exact ⟨by decide, rfl⟩

theorem hexValue_hexUnit : ∀ digit < 16, hexValue (hexUnit digit) = some digit := by
  decide

private theorem step_string (role : StringRole) (escape : Escape) (read : JsString)
    (frames : List Frame) (code : CodeUnit) {mode : Mode}
    (stepped : stringStep role escape read code = some mode) :
    step ⟨.string role escape read, frames⟩ code = some ⟨mode, frames⟩ := by
  simp only [step, stepped, Option.map_some]

private theorem stringStep_plain (role : StringRole) (read : JsString) {code : CodeUnit}
    (plain : shortEscape code = none) (printable : ¬ code.val < 32) :
    stringStep role .none read code = some (.string role .none (read ++ [code])) := by
  rw [shortEscape] at plain
  split_ifs at plain with quotation backslash
  simp only [stringStep, if_neg quotation, if_neg backslash, if_neg printable]

private theorem runFrom_backslash (role : StringRole) (read tail : JsString)
    (frames : List Frame) :
    runFrom ⟨.string role .none read, frames⟩ (unit '\\' :: tail) =
      runFrom ⟨.string role .backslash read, frames⟩ tail := by
  have notQuotation : unit '\\' ≠ unit '"' := by decide
  refine runFrom_step tail (step_string role .none read frames _ ?_)
  simp [stringStep, notQuotation]

private theorem stringStep_hex (role : StringRole) (read : JsString) (missing value digit : Nat)
    (small : digit < 16) :
    stringStep role (.hex missing value) read (hexUnit digit) =
      some (if missing = 1 then
        .string role .none (read ++ [Fin.ofNat 65536 (16 * value + digit)])
      else
        .string role (.hex (missing - 1) (16 * value + digit)) read) := by
  simp only [stringStep, hexValue_hexUnit digit small, Option.map_some]

private theorem runFrom_unicodeEscape (role : StringRole) (read tail : JsString)
    (frames : List Frame) (code : CodeUnit) :
    runFrom ⟨.string role .none read, frames⟩ (unicodeEscape code ++ tail) =
      runFrom ⟨.string role .none (read ++ [code]), frames⟩ tail := by
  have bound := code.isLt
  have digits : 16 * (16 * (16 * (16 * 0 + code.val / 4096) + code.val / 256 % 16) +
      code.val / 16 % 16) + code.val % 16 = code.val := by
    omega
  simp only [unicodeEscape, List.cons_append, List.nil_append]
  rw [runFrom_backslash,
    runFrom_step _ (step_string role .backslash read frames (unit 'u') (by rfl)),
    runFrom_step _ (step_string _ _ _ _ _ (stringStep_hex role read 4 0 _ (by omega))),
    if_neg (by decide),
    runFrom_step _ (step_string _ _ _ _ _ (stringStep_hex role read 3 _ _ (by omega))),
    if_neg (by decide),
    runFrom_step _ (step_string _ _ _ _ _ (stringStep_hex role read 2 _ _ (by omega))),
    if_neg (by decide),
    runFrom_step _ (step_string _ _ _ _ _ (stringStep_hex role read 1 _ _ (by omega))),
    if_pos rfl, digits, Fin.ofNat_val_eq_self]

theorem runFrom_quoteUnit (role : StringRole) (read tail : JsString) (frames : List Frame)
    (code : CodeUnit) :
    runFrom ⟨.string role .none read, frames⟩ (quoteUnit code ++ tail) =
      runFrom ⟨.string role .none (read ++ [code]), frames⟩ tail := by
  rw [quoteUnit]
  cases short : shortEscape code with
  | some letter =>
      obtain ⟨notUnicode, meant⟩ := shortValue_shortEscape short
      simp only [List.cons_append, List.nil_append]
      rw [runFrom_backslash]
      refine runFrom_step tail (step_string role .backslash read frames letter ?_)
      simp only [stringStep, if_neg notUnicode, meant, Option.map_some]
  | none =>
      by_cases escaped : code.val < 32 ∨ isHighSurrogate code ∨ isLowSurrogate code
      · simp only [if_pos escaped]
        exact runFrom_unicodeEscape role read tail frames code
      · simp only [if_neg escaped, List.cons_append, List.nil_append]
        exact runFrom_step tail (step_string role .none read frames code
          (stringStep_plain role read short fun low => escaped (Or.inl low)))

private theorem shortEscape_surrogate {code : CodeUnit} (large : 0xD800 ≤ code.val) :
    shortEscape code = none := by
  have quotation : code ≠ unit '"' := by
    rintro rfl
    exact absurd large (by decide)
  have backslash : code ≠ unit '\\' := by
    rintro rfl
    exact absurd large (by decide)
  simp only [shortEscape, if_neg quotation, if_neg backslash]
  repeat rw [if_neg (by omega)]

theorem runFrom_quoteUnits (role : StringRole) (text : JsString) (read tail : JsString)
    (frames : List Frame) :
    runFrom ⟨.string role .none read, frames⟩ (quoteUnits text ++ tail) =
      runFrom ⟨.string role .none (read ++ text), frames⟩ tail := by
  fun_induction quoteUnits text generalizing read with
  | case1 => simp
  | case2 code => exact runFrom_quoteUnit role read tail frames code
  | case3 first second rest pair inductionHypothesis =>
      simp only [isHighSurrogate, isLowSurrogate, Bool.and_eq_true, decide_eq_true_eq] at pair
      simp only [List.cons_append]
      rw [runFrom_step _ (step_string role .none read frames first
          (stringStep_plain role read (shortEscape_surrogate pair.1.1) (by omega))),
        runFrom_step _ (step_string role .none _ frames second
          (stringStep_plain role _ (shortEscape_surrogate (by omega)) (by omega))),
        inductionHypothesis]
      simp
  | case4 first second rest lone inductionHypothesis =>
      rw [List.append_assoc, runFrom_quoteUnit, inductionHypothesis]
      simp

/-- A string literal is read back. -/
theorem runFrom_quote (role : StringRole) (text tail : JsString) (frames : List Frame) :
    runFrom ⟨.string role .none [], frames⟩ (quoteUnits text ++ unit '"' :: tail) =
      runFrom ⟨endString role text, frames⟩ tail := by
  rw [runFrom_quoteUnits, List.nil_append]
  exact runFrom_step tail (step_string role .none text frames (unit '"') (by simp [stringStep]))

/-! ## Numerals -/

theorem runFrom_numeral (read digits : JsString) (frames : List Frame) (tail : JsString)
    (units : ∀ code ∈ digits, isNumeralUnit code = true) :
    runFrom ⟨.numeral read, frames⟩ (digits ++ tail) =
      runFrom ⟨.numeral (read ++ digits), frames⟩ tail := by
  induction digits generalizing read with
  | nil => simp
  | cons code digits inductionHypothesis =>
      have first : isNumeralUnit code = true := units code List.mem_cons_self
      rw [List.cons_append, runFrom_step _ (by simp only [step, first, if_true]; rfl),
        inductionHypothesis _ fun other member => units other (List.mem_cons_of_mem _ member)]
      simp

private theorem step_value_digit (digit : Digit) (frames : List Frame) :
    step ⟨.value, frames⟩ (digitUnit digit) = some ⟨.numeral [digitUnit digit], frames⟩ := by
  have different : ∀ digit : Digit, isJsonSpace (digitUnit digit) = false ∧
      digitUnit digit ≠ unit '{' ∧ digitUnit digit ≠ unit '[' ∧ digitUnit digit ≠ unit '"' ∧
      digitUnit digit ≠ unit 't' ∧ digitUnit digit ≠ unit 'f' ∧ digitUnit digit ≠ unit 'n' := by
    decide
  obtain ⟨space, brace, bracket, quotation, true, false, null⟩ := different digit
  simp [step, startValue, space, brace, bracket, quotation, true, false, null]

private theorem runFrom_number (value : Double) (frames : List Frame) (code : CodeUnit)
    (rest : JsString) (ends : isNumeralUnit code = false) :
    runFrom ⟨.value, frames⟩ (value.name.text ++ code :: rest) =
      runFrom ⟨.done (.number (.finite value)), frames⟩ (code :: rest) := by
  obtain ⟨first, tail, shape, start, units⟩ := value.name.text_shape
  have started : step ⟨.value, frames⟩ first = some ⟨.numeral [first], frames⟩ := by
    have cases : first = unit '-' ∨ ∃ digit, first = digitUnit digit := by
      rcases start with minus | digit
      · exact Or.inl minus
      · right
        rw [digitOf] at digit
        split at digit
        next bounds =>
          exact ⟨⟨first.val - 48, by omega⟩, Fin.ext (by simp only [digitUnit]; omega)⟩
        next => cases digit
    rcases cases with rfl | ⟨digit, rfl⟩
    · rfl
    · exact step_value_digit digit frames
  rw [shape, List.cons_append, runFrom_step _ started, runFrom_numeral [first] tail _ _ units,
    List.singleton_append, ← shape, runFrom_cons, runFrom_cons]
  simp [step, ends, readNumeral_text]

/-! ## Values -/

theorem itemsAreJson_iff (items : List JsValue) :
    itemsAreJson items = true ↔ ∀ item ∈ items, item.isJson = true := by
  induction items with
  | nil => simp [itemsAreJson]
  | cons item rest inductionHypothesis => simp [itemsAreJson, inductionHypothesis]

theorem membersAreJson_iff (members : Members) :
    membersAreJson members = true ↔ ∀ member ∈ members, member.2.isJson = true := by
  induction members with
  | nil => simp [membersAreJson]
  | cons member rest inductionHypothesis =>
      obtain ⟨key, value⟩ := member
      simp [membersAreJson, inductionHypothesis]

/-- Reading the text of a value, where a value is due, hands the value over. -/
def ReadBack (value : JsValue) : Prop :=
  ∀ frames code rest, isNumeralUnit code = false →
    runFrom ⟨.value, frames⟩ (value.stringify ++ code :: rest) =
      runFrom ⟨.done value, frames⟩ (code :: rest)

private theorem readBack_word (value : JsValue) (first : CodeUnit) (word : JsString)
    (text : value.stringify = first :: word) (nonempty : word ≠ [])
    (started : ∀ frames, step ⟨.value, frames⟩ first = some ⟨.word value word, frames⟩) :
    ReadBack value := by
  intro frames code rest ends
  have spelled : ∀ word : JsString, word ≠ [] →
      runFrom ⟨.word value word, frames⟩ (word ++ code :: rest) =
        runFrom ⟨.done value, frames⟩ (code :: rest) := by
    intro word nonempty
    induction word with
    | nil => exact absurd rfl nonempty
    | cons letter word inductionHypothesis =>
        cases word with
        | nil => exact runFrom_step _ (by simp [step])
        | cons next word =>
            rw [List.cons_append, runFrom_step _ (by simp only [step, if_true]; rfl)]
            exact inductionHypothesis (by simp)
  rw [text, List.cons_append, runFrom_step _ (started frames), spelled word nonempty]

/-- The first unit of a value is read in the same way at the start of an array. -/
theorem step_firstItem {first : CodeUnit} (start : startsValue first = true)
    (frames : List Frame) :
    step ⟨.firstItem, frames⟩ first = step ⟨.value, frames⟩ first := by
  have space : isJsonSpace first = false := by
    by_contra space
    simp only [isJsonSpace, Bool.not_eq_false, Bool.or_eq_true, beq_iff_eq] at space
    have listed : first = 32 ∨ first = 9 ∨ first = 10 ∨ first = 13 := by
      rcases space with ((blank | tab) | lineFeed) | carriageReturn
      · exact Or.inl (Fin.ext blank)
      · exact Or.inr (Or.inl (Fin.ext tab))
      · exact Or.inr (Or.inr (Or.inl (Fin.ext lineFeed)))
      · exact Or.inr (Or.inr (Or.inr (Fin.ext carriageReturn)))
    rcases listed with rfl | rfl | rfl | rfl <;> exact absurd start (by decide)
  have notClose : first ≠ unit ']' := by
    rintro rfl
    exact absurd start (by decide)
  simp only [step, space, notClose, if_false, Bool.false_eq_true]

private theorem runFrom_firstItem (value : JsValue) (frames : List Frame) (tail : JsString) :
    runFrom ⟨.firstItem, frames⟩ (value.stringify ++ tail) =
      runFrom ⟨.value, frames⟩ (value.stringify ++ tail) := by
  obtain ⟨first, rest, shape, start⟩ := value.stringify_start
  rw [shape, List.cons_append, runFrom_cons, runFrom_cons, step_firstItem start]

private theorem runFrom_items (item : JsValue) (rest before : List JsValue) (frames : List Frame)
    (tail : JsString) (readBack : ∀ value ∈ item :: rest, ReadBack value) :
    runFrom ⟨.value, .array before :: frames⟩
        (commaJoin (stringifyItems (item :: rest)) ++ unit ']' :: tail) =
      runFrom ⟨.done (.array (before ++ item :: rest)), frames⟩ tail := by
  have comma : isNumeralUnit (unit ',') = false := by decide
  have close : isNumeralUnit (unit ']') = false := by decide
  induction rest generalizing item before with
  | nil =>
      simp only [stringifyItems, commaJoin]
      rw [readBack item (by simp) _ _ _ close]
      exact runFrom_step tail (by rfl)
  | cons next rest inductionHypothesis =>
      have joined : commaJoin (stringifyItems (item :: next :: rest)) ++ unit ']' :: tail =
          item.stringify ++
            unit ',' :: (commaJoin (stringifyItems (next :: rest)) ++ unit ']' :: tail) := by
        simp [stringifyItems, commaJoin]
      rw [joined, readBack item (by simp) _ _ _ comma,
        @runFrom_step _ ⟨.value, .array (before ++ [item]) :: frames⟩ _ _ (by rfl),
        inductionHypothesis next (before ++ [item])
          fun value member => readBack value (List.mem_cons_of_mem _ member)]
      simp

private theorem runFrom_member (key : JsString) (value : JsValue) (members : Members)
    (frames : List Frame) (code : CodeUnit) (tail : JsString) (readBack : ReadBack value)
    (ends : isNumeralUnit code = false) :
    runFrom ⟨.string (.key members) .none [], frames⟩
        (quoteUnits key ++ unit '"' :: unit ':' :: (value.stringify ++ code :: tail)) =
      runFrom ⟨.done value, .member members key :: frames⟩ (code :: tail) := by
  rw [runFrom_quote,
    @runFrom_step _ ⟨.value, .member members key :: frames⟩ _ _ (by rfl),
    readBack _ _ _ ends]

private theorem runFrom_members (member : JsString × JsValue) (rest before : Members)
    (frames : List Frame) (tail : JsString)
    (readBack : ∀ other ∈ member :: rest, ReadBack other.2)
    (defined : ∀ other ∈ member :: rest, other.2.isUndefined = false) :
    runFrom ⟨.key before, frames⟩
        (commaJoin (stringifyMembers (member :: rest)) ++ unit '}' :: tail) =
      runFrom ⟨.done (.object ((member :: rest).foldl
        (fun out member => setProperty member.1 member.2 out) before)), frames⟩ tail := by
  have comma : isNumeralUnit (unit ',') = false := by decide
  have close : isNumeralUnit (unit '}') = false := by decide
  induction rest generalizing member before with
  | nil =>
      have joined : commaJoin (stringifyMembers [member]) ++ unit '}' :: tail =
          unit '"' :: (quoteUnits member.1 ++
            unit '"' :: unit ':' :: (member.2.stringify ++ unit '}' :: tail)) := by
        simp [stringifyMembers, defined member (by simp), commaJoin, quote]
      rw [joined, @runFrom_step _ ⟨.string (.key before) .none [], frames⟩ _ _ (by rfl),
        runFrom_member _ _ _ _ _ _ (readBack member (by simp)) close]
      exact runFrom_step tail (by rfl)
  | cons next rest inductionHypothesis =>
      have nonempty : stringifyMembers (next :: rest) =
          (quote next.1 ++ unit ':' :: next.2.stringify) :: stringifyMembers rest := by
        simp [stringifyMembers, defined next (by simp)]
      have joined : commaJoin (stringifyMembers (member :: next :: rest)) ++ unit '}' :: tail =
          unit '"' :: (quoteUnits member.1 ++ unit '"' :: unit ':' :: (member.2.stringify ++
            unit ',' :: (commaJoin (stringifyMembers (next :: rest)) ++ unit '}' :: tail))) := by
        rw [stringifyMembers, defined member (by simp), nonempty]
        simp [commaJoin, quote]
      rw [joined, @runFrom_step _ ⟨.string (.key before) .none [], frames⟩ _ _ (by rfl),
        runFrom_member _ _ _ _ _ _ (readBack member (by simp)) comma,
        @runFrom_step _ ⟨.key (setProperty member.1 member.2 before), frames⟩ _ _ (by rfl),
        inductionHypothesis next _ (fun other found => readBack other (List.mem_cons_of_mem _ found))
          fun other found => defined other (List.mem_cons_of_mem _ found)]
      rfl

theorem isUndefined_of_isJson {value : JsValue} (json : value.isJson = true) :
    value.isUndefined = false := by
  cases value <;> first | rfl | cases json

/-- Every value a JSON text denotes is read back from its text. -/
theorem readBack_of_isJson (value : JsValue) : value.isJson = true → ReadBack value := by
  induction value using JsValue.induction with
  | undefined => intro json; cases json
  | null => intro _; exact readBack_word .null (unit 'n') (js "ull") rfl (by decide) fun _ => rfl
  | bool value =>
      intro _
      cases value with
      | true =>
          exact readBack_word (.bool true) (unit 't') (js "rue") rfl (by decide) fun _ => rfl
      | false =>
          exact readBack_word (.bool false) (unit 'f') (js "alse") rfl (by decide) fun _ => rfl
  | number value =>
      intro json frames code rest ends
      cases value with
      | finite value => exact runFrom_number value frames code rest ends
      | nan => cases json
      | infinity => cases json
  | string value =>
      intro _ frames code rest _
      have text : (JsValue.string value).stringify ++ code :: rest =
          unit '"' :: (quoteUnits value ++ unit '"' :: code :: rest) := by
        simp [JsValue.stringify, quote]
      rw [text, @runFrom_step _ ⟨.string .value .none [], frames⟩ _ _ (by rfl), runFrom_quote]
      rfl
  | array items inductionHypothesis =>
      intro json frames code rest _
      rw [JsValue.isJson, itemsAreJson_iff] at json
      have text : (JsValue.array items).stringify ++ code :: rest =
          unit '[' :: (commaJoin (stringifyItems items) ++ unit ']' :: code :: rest) := by
        simp [JsValue.stringify]
      rw [text, @runFrom_step _ ⟨.firstItem, .array [] :: frames⟩ _ _ (by rfl)]
      cases items with
      | nil => exact runFrom_step _ (by rfl)
      | cons item others =>
          have first : ∃ tail, commaJoin (stringifyItems (item :: others)) ++
              unit ']' :: code :: rest = item.stringify ++ tail := by
            cases others with
            | nil => exact ⟨_, rfl⟩
            | cons next others =>
                exact ⟨_, by simp only [stringifyItems, commaJoin, List.append_assoc]; rfl⟩
          obtain ⟨tail, shape⟩ := first
          rw [shape, runFrom_firstItem, ← shape, runFrom_items item others [] frames _
            fun value member => inductionHypothesis value member (json value member)]
          rfl
  | object members inductionHypothesis =>
      intro json frames code rest _
      rw [JsValue.isJson, Bool.and_eq_true, decide_eq_true_eq, membersAreJson_iff] at json
      obtain ⟨enumerated, json⟩ := json
      have text : (JsValue.object members).stringify ++ code :: rest =
          unit '{' :: (commaJoin (stringifyMembers members) ++ unit '}' :: code :: rest) := by
        simp [JsValue.stringify]
      rw [text, @runFrom_step _ ⟨.firstKey, frames⟩ _ _ (by rfl)]
      cases members with
      | nil => exact runFrom_step _ (by rfl)
      | cons member others =>
          have read := runFrom_members member others [] frames (code :: rest)
            (fun other found => inductionHypothesis other found (json other found))
            fun other found => isUndefined_of_isJson (json other found)
          rw [foldl_setProperty (by simpa using enumerated), List.nil_append] at read
          rw [← read]
          have opened : ∃ tail, commaJoin (stringifyMembers (member :: others)) =
              unit '"' :: tail := by
            have defined := isUndefined_of_isJson (json member (by simp))
            rw [stringifyMembers, defined]
            cases stringifyMembers others with
            | nil => exact ⟨_, rfl⟩
            | cons next texts => exact ⟨_, rfl⟩
          obtain ⟨tail, shape⟩ := opened
          rw [shape, List.cons_append, runFrom_cons, runFrom_cons]
          rfl

/-- `JSON.parse(JSON.stringify(value))` is the value, for the values JSON texts denote. -/
theorem parseJson_stringify {value : JsValue} (json : value.isJson = true) :
    parseJson value.stringify = some value := by
  have space : isNumeralUnit (unit ' ') = false := by decide
  rw [parseJson, startState, readBack_of_isJson value json [] (unit ' ') [] space]
  rfl

end SpecAsCode.Js
