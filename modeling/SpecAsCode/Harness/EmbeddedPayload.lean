import SpecAsCode.Harness.Candidates
import SpecAsCode.Js.Printed

/-!
# The payload of a prompt

The JSON object that stands in a prompt behind its banner is read back, whatever its strings
are and whatever follows it.
-/

namespace SpecAsCode.Harness

open SpecAsCode.Js

/-- `spc agent show` reads the prompt in the same way. -/
def extractPromptPayload (prompt : JsString) : Option JsValue :=
  (objectText 0 false false (prompt.dropWhile fun letter => letter ≠ unit '\x7b')).bind parseJson

/-! ## Strings -/

theorem objectText_inString (depth : Nat) (escaped : Bool) (letter : CodeUnit) (rest : JsString) :
    objectText depth true escaped (letter :: rest) =
      (objectText depth (!(!escaped && letter == unit '"')) (!escaped && letter == unit '\\')
        rest).map (letter :: ·) := rfl

/-- Inside of a string, a text leaves the scan where it was. -/
def Inside (text : JsString) : Prop :=
  ∀ depth rest, objectText depth true false (text ++ rest) =
    (objectText depth true false rest).map (text ++ ·)

theorem Inside.append {first second : JsString} (before : Inside first) (after : Inside second) :
    Inside (first ++ second) := by
  intro depth rest
  rw [List.append_assoc, before, after, Option.map_map]
  simp only [Function.comp_def, List.append_assoc]

/-- A code unit that neither ends a string nor starts an escape. -/
theorem inside_letter {code : CodeUnit} (notQuote : code ≠ unit '"') (notEscape : code ≠ unit '\\') :
    Inside [code] := by
  intro depth rest
  rw [List.singleton_append, objectText_inString, beq_false_of_ne notQuote,
    beq_false_of_ne notEscape]
  rfl

/-- The code unit behind a backslash is passed over. -/
theorem inside_escape (letter : CodeUnit) : Inside [unit '\\', letter] := by
  intro depth rest
  have escapes : objectText depth true false (unit '\\' :: letter :: rest) =
      (objectText depth true true (letter :: rest)).map (unit '\\' :: ·) := rfl
  rw [List.cons_append, List.singleton_append, escapes, objectText_inString, Option.map_map]
  rfl

theorem inside_hexUnit (code : CodeUnit) (power : Nat) : Inside [hexUnit (code.val / power % 16)] := by
  have hex : ∀ digit < 16, hexUnit digit ≠ unit '"' ∧ hexUnit digit ≠ unit '\\' := by decide
  have letter := hex (code.val / power % 16) (Nat.mod_lt _ (by decide))
  exact inside_letter letter.1 letter.2

theorem inside_quoteUnit (code : CodeUnit) : Inside (quoteUnit code) := by
  rw [quoteUnit]
  cases short : shortEscape code with
  | some letter => exact inside_escape letter
  | none =>
      have other : code ≠ unit '"' ∧ code ≠ unit '\\' := by
        constructor <;> rintro rfl <;> cases short
      dsimp only
      split_ifs
      · have first : code.val / 4096 = code.val / 4096 % 16 := by omega
        have last : code.val % 16 = code.val / 1 % 16 := by rw [Nat.div_one]
        rw [unicodeEscape, first, last]
        exact (inside_escape (unit 'u')).append ((inside_hexUnit code 4096).append
          ((inside_hexUnit code 256).append ((inside_hexUnit code 16).append
            (inside_hexUnit code 1))))
      · exact inside_letter other.1 other.2

theorem inside_surrogate {code : CodeUnit} (large : 0xD800 ≤ code.val) : Inside [code] := by
  refine inside_letter ?_ ?_ <;> rintro rfl <;> exact absurd large (by decide)

theorem inside_quoteUnits (text : JsString) : Inside (quoteUnits text) := by
  fun_induction quoteUnits text with
  | case1 => exact fun depth rest => Option.map_id'.symm
  | case2 code => exact inside_quoteUnit code
  | case3 first second rest pair inductionHypothesis =>
      simp only [isHighSurrogate, isLowSurrogate, Bool.and_eq_true, decide_eq_true_eq] at pair
      exact (inside_surrogate pair.1.1).append
        ((inside_surrogate (by omega)).append inductionHypothesis)
  | case4 first second rest lone inductionHypothesis =>
      exact (inside_quoteUnit first).append inductionHypothesis

/-! ## Values -/

/-- Outside of strings, a text leaves the scan of an open object where it was. -/
def Level (text : JsString) : Prop :=
  ∀ depth rest, 0 < depth → objectText depth false false (text ++ rest) =
    (objectText depth false false rest).map (text ++ ·)

theorem Level.append {first second : JsString} (before : Level first) (after : Level second) :
    Level (first ++ second) := by
  intro depth rest opened
  rw [List.append_assoc, before _ _ opened, after _ _ opened, Option.map_map]
  simp only [Function.comp_def, List.append_assoc]

theorem level_plain {code : CodeUnit} (plain : isPlainUnit code = true) : Level [code] := by
  intro depth rest _
  simp only [isPlainUnit, Bool.and_eq_true, bne_iff_ne, ne_eq] at plain
  rw [List.singleton_append, objectText, if_neg Bool.false_ne_true, if_neg plain.1.1.1.1,
    if_neg plain.1.1.1.2, if_neg plain.1.1.2]
  rfl

theorem level_quote (text : JsString) : Level (quote text) := by
  intro depth rest _
  have opens : ∀ tail, objectText depth false false (unit '"' :: tail) =
      (objectText depth true false tail).map (unit '"' :: ·) := fun _ => rfl
  have closes : objectText depth true false (unit '"' :: rest) =
      (objectText depth false false rest).map (unit '"' :: ·) := rfl
  rw [quote, List.cons_append, List.append_assoc, List.singleton_append, opens,
    inside_quoteUnits, closes, Option.map_map, Option.map_map]
  simp [Function.comp_def]

theorem objectText_opens (depth : Nat) (tail : JsString) :
    objectText depth false false (unit '\x7b' :: tail) =
      (objectText (depth + 1) false false tail).map (unit '\x7b' :: ·) := rfl

theorem level_braces {inner : JsString} (inside : Level inner) :
    Level (unit '\x7b' :: (inner ++ [unit '\x7d'])) := by
  intro depth rest opened
  have closes : objectText (depth + 1) false false (unit '\x7d' :: rest) =
      (objectText depth false false rest).map (unit '\x7d' :: ·) := by
    have deeper : ¬ depth + 1 = 1 := by omega
    show (if depth + 1 = 1 then _ else _) = _
    rw [if_neg deeper, Nat.add_sub_cancel]
  rw [List.cons_append, List.append_assoc, List.singleton_append, objectText_opens,
    inside _ _ (Nat.succ_pos depth), closes, Option.map_map, Option.map_map]
  simp [Function.comp_def]

theorem printable_level : Printable Level where
  nil := fun _ _ _ => Option.map_id'.symm
  append := Level.append
  plain := level_plain
  quote := level_quote
  braces := level_braces

/-! ## Payloads -/

/-- The scan ends at the brace that closes the first object. -/
theorem objectText_braces {inner : JsString} (inside : Level inner) (tail : JsString) :
    objectText 0 false false (unit '\x7b' :: (inner ++ [unit '\x7d']) ++ tail) =
      some (unit '\x7b' :: (inner ++ [unit '\x7d'])) := by
  have closes : objectText 1 false false (unit '\x7d' :: tail) = some [unit '\x7d'] := rfl
  rw [List.cons_append, List.append_assoc, List.singleton_append, objectText_opens,
    inside _ _ (Nat.succ_pos 0), closes]
  rfl

/-- Both copies return the object that the text behind the banner prints. -/
theorem extractPayload_braces {banner inner tail : JsString} {value : JsValue}
    (free : unit '\x7b' ∉ banner) (inside : Level inner)
    (reads : parseJson (unit '\x7b' :: (inner ++ [unit '\x7d'])) = some value) :
    extractPayload (banner ++ unit '\x7b' :: (inner ++ [unit '\x7d']) ++ tail) = some value := by
  have start : (banner ++ unit '\x7b' :: (inner ++ [unit '\x7d']) ++ tail).dropWhile
      (fun letter => letter ≠ unit '\x7b') = unit '\x7b' :: (inner ++ [unit '\x7d']) ++ tail := by
    have passed : ∀ letter ∈ banner, decide (letter ≠ unit '\x7b') = true :=
      fun letter member => decide_eq_true fun same => free (same ▸ member)
    rw [List.append_assoc, List.dropWhile_append_of_pos passed]
    rfl
  rw [extractPayload, start, objectText_braces inside, Option.bind_some, reads]

/-- The object that is printed behind the banner is returned, by both copies, whether it is
printed compactly or with a gap. -/
theorem extractPayload_printed {banner : JsString} (free : unit '\x7b' ∉ banner) {members : Members}
    (json : (JsValue.object members).isJson = true) (tail : JsString) (gap : Nat) :
    let object := JsValue.object members
    extractPayload (banner ++ object.stringify ++ tail) = some object ∧
      extractPayload (banner ++ object.spaced gap 0 ++ tail) = some object ∧
      extractPromptPayload (banner ++ object.stringify ++ tail) = some object ∧
      extractPromptPayload (banner ++ object.spaced gap 0 ++ tail) = some object := by
  intro object
  have compact : extractPayload (banner ++ object.stringify ++ tail) = some object := by
    have reads := parseJson_stringify json
    rw [JsValue.stringify] at reads
    exact extractPayload_braces free (printable_level.members members) reads
  have spaced : extractPayload (banner ++ object.spaced gap 0 ++ tail) = some object := by
    have reads : parseJson (object.spaced gap 0) = some object := parseJson_spaced_end json
    rw [JsValue.spaced] at reads
    exact extractPayload_braces free (printable_level.spacedBlock gap 0 members) reads
  exact ⟨compact, spaced, compact, spaced⟩

theorem extractPayload_braceText :
    let object := JsValue.object [(js "a", .string (js "\x7d\\\"\x7b"))]
    extractPayload (js "Task:\n" ++ object.stringify ++ js "\x7d") = some object ∧
      extractPayload (js "Task:\n" ++ object.spaced 2 0 ++ js "\x7d") = some object ∧
      extractPromptPayload (js "Task:\n" ++ object.stringify ++ js "\x7d") = some object ∧
      extractPromptPayload (js "Task:\n" ++ object.spaced 2 0 ++ js "\x7d") = some object :=
  extractPayload_printed (by decide) (by decide) (js "\x7d") 2

end SpecAsCode.Harness
