import Mathlib.Data.List.ReduceOption
import SpecAsCode.Llm.Structured
import SpecAsCode.Js.TextContents

/-!
# Extracting an answer

Which of the three attempts finds the answer of a model, when text stands around it.
-/

namespace SpecAsCode.Llm

open SpecAsCode.Js

/-! ## The outermost brackets -/

/-- A text without brackets, braces and back quotes. -/
def Bare (text : JsString) : Prop :=
  ∀ code ∈ text, code ∉ js "\x7b\x7d[]\u0060"

theorem Bare.not_mem {text : JsString} (bare : Bare text) {letter : CodeUnit}
    (special : letter ∈ js "\x7b\x7d[]\u0060") : letter ∉ text :=
  fun member => bare letter member special

theorem bare_of_all {text : JsString}
    (plain : (text.all fun code => decide (code ∉ js "\x7b\x7d[]\u0060")) = true) : Bare text :=
  fun code member => of_decide_eq_true (List.all_eq_true.mp plain code member)

theorem idxOf?_behind {letter first : CodeUnit} {front : JsString} (rest : JsString)
    (absent : letter ∉ front) :
    (front ++ first :: rest).idxOf? letter =
      if first = letter then some front.length
      else (rest.idxOf? letter).map (· + (front.length + 1)) := by
  induction front with
  | nil => simp [List.idxOf?_cons]
  | cons code front inductionHypothesis =>
      rw [List.mem_cons, not_or] at absent
      rw [List.cons_append, List.idxOf?_cons, beq_false_of_ne (Ne.symm absent.1),
        if_neg Bool.false_ne_true, inductionHypothesis absent.2]
      split_ifs
      · rfl
      · simp [Option.map_map, Function.comp_def, Nat.add_assoc]

/-- The first of two marks is where one of them stands behind a text without any. -/
theorem min_idxOf? {first one other : CodeUnit} {front : JsString} (rest : JsString)
    (absent : one ∉ front) (missing : other ∉ front) (mark : first = one ∨ first = other) :
    [(front ++ first :: rest).idxOf? one, (front ++ first :: rest).idxOf? other].reduceOption.min? =
      some front.length := by
  rw [idxOf?_behind rest absent, idxOf?_behind rest missing]
  have least : ∀ {text : JsString} {letter : CodeUnit} {index : Nat},
      (text.idxOf? letter).map (· + (front.length + 1)) = some index → front.length ≤ index := by
    intro text letter index found
    obtain ⟨before, -, rfl⟩ := Option.map_eq_some_iff.mp found
    exact Nat.le_add_left_of_le (Nat.le_succ _)
  split_ifs with same also different
  · simp
  · cases found : (rest.idxOf? other).map (· + (front.length + 1)) with
    | none => simp
    | some index => simpa using least found
  · cases found : (rest.idxOf? one).map (· + (front.length + 1)) with
    | none => simp
    | some index => simpa using least found
  · exact absurd mark (not_or.mpr ⟨same, different⟩)

theorem max_lastIndexOf {last one other : CodeUnit} {back : JsString} (front : JsString)
    (absent : one ∉ back) (missing : other ∉ back) (mark : last = one ∨ last = other) :
    [lastIndexOf one (front ++ last :: back), lastIndexOf other (front ++ last :: back)].reduceOption.max? =
      some front.length := by
  have reversed : (front ++ last :: back).reverse = back.reverse ++ last :: front.reverse := by simp
  have size : (front ++ last :: back).length = front.length + back.length + 1 := by
    rw [List.length_append, List.length_cons, Nat.add_assoc]
  have positions : ∀ {letter : CodeUnit}, letter ∉ back →
      lastIndexOf letter (front ++ last :: back) = if last = letter then some front.length
        else (front.reverse.idxOf? letter).map (front.length - 1 - ·) := by
    intro letter absent
    rw [lastIndexOf, reversed, idxOf?_behind _ fun member => absent (List.mem_reverse.mp member),
      size, List.length_reverse]
    split_ifs
    · rw [Option.map_some, show front.length + back.length + 1 - 1 - back.length = front.length by omega]
    · rw [Option.map_map]
      congr 1
      funext index
      simp only [Function.comp_apply]
      omega
  have most : ∀ {text : JsString} {letter : CodeUnit} {index : Nat},
      (text.idxOf? letter).map (front.length - 1 - ·) = some index → index ≤ front.length := by
    intro text letter index found
    obtain ⟨before, -, rfl⟩ := Option.map_eq_some_iff.mp found
    omega
  rw [positions absent, positions missing]
  split_ifs with same also different
  · simp
  · cases found : (front.reverse.idxOf? other).map (front.length - 1 - ·) with
    | none => simp
    | some index => simpa using most found
  · cases found : (front.reverse.idxOf? one).map (front.length - 1 - ·) with
    | none => simp
    | some index => simpa using most found
  · exact absurd mark (not_or.mpr ⟨same, different⟩)

/-- A text in brackets. -/
structure Bracketed (text : JsString) : Prop where
  shape : ∃ first inner last, text = first :: (inner ++ [last]) ∧
    (first = unit '\x7b' ∨ first = unit '[') ∧ (last = unit '\x7d' ∨ last = unit ']')

/-- A text without brackets and braces. -/
def Unbracketed (text : JsString) : Prop :=
  ∀ letter ∈ js "\x7b\x7d[]", letter ∉ text

theorem unbracketed_of_all {text : JsString}
    (plain : ((js "\x7b\x7d[]").all fun letter => decide (letter ∉ text)) = true) :
    Unbracketed text :=
  fun letter special => of_decide_eq_true (List.all_eq_true.mp plain letter special)

theorem Bare.unbracketed {text : JsString} (bare : Bare text) : Unbracketed text :=
  fun _ special => bare.not_mem (List.mem_append_left (js "\u0060") special)

theorem Unbracketed.append {first second : JsString} (plain : Unbracketed first)
    (other : Unbracketed second) : Unbracketed (first ++ second) := by
  intro letter special
  rw [List.mem_append, not_or]
  exact ⟨plain letter special, other letter special⟩

/-- What has no brackets around it is found between the outermost ones. -/
theorem bracketed_between {text front back : JsString} (brackets : Bracketed text)
    (before : Unbracketed front) (after : Unbracketed back) :
    bracketed (front ++ text ++ back) = some text := by
  obtain ⟨first, inner, last, rfl, opens, closes⟩ := brackets.shape
  have opened := min_idxOf? (inner ++ [last] ++ back) (before _ (by decide)) (before _ (by decide))
    opens
  have closed := max_lastIndexOf (front ++ first :: inner) (after _ (by decide))
    (after _ (by decide)) closes
  have left : front ++ first :: (inner ++ [last]) ++ back =
      front ++ first :: (inner ++ [last] ++ back) := by simp
  have right : front ++ first :: (inner ++ [last]) ++ back =
      front ++ first :: inner ++ last :: back := by simp
  have whole : (front ++ first :: (inner ++ [last]) ++ back).take
      ((front ++ first :: inner).length + 1) = front ++ first :: (inner ++ [last]) := by
    have size : (front ++ first :: inner).length + 1 =
        (front ++ first :: (inner ++ [last])).length := by
      simp only [List.length_append, List.length_cons, List.length_nil]
      omega
    rw [size, List.take_left]
  rw [← left] at opened
  rw [← right] at closed
  simp only [bracketed, opened, closed]
  rw [if_pos (by simp), whole, List.drop_left]

/-! ## The first fence -/

theorem splitAtFence_cons {code : CodeUnit} {text : JsString}
    (other : fence.isPrefixOf (code :: text) = false) :
    splitAtFence (code :: text) =
      (splitAtFence text).map fun parts => (code :: parts.1, parts.2) := by
  rw [splitAtFence, other, if_neg Bool.false_ne_true]

/-- A code unit that a word does not have ends every search for the word. -/
theorem isPrefixOf_stop {stop : CodeUnit} (rest : JsString) :
    ∀ {word text : JsString}, stop ∉ word →
      word.isPrefixOf (text ++ stop :: rest) = word.isPrefixOf text
  | [], _, _ => by rw [List.isPrefixOf_nil_left, List.isPrefixOf_nil_left]
  | letter :: word, [], absent => by
      have other : letter ≠ stop := fun same => absent (by simp [same])
      simp [List.isPrefixOf, other]
  | letter :: word, code :: text, absent => by
      have inner : stop ∉ word := fun member => absent (List.mem_cons_of_mem _ member)
      rw [List.cons_append, List.isPrefixOf, List.isPrefixOf, isPrefixOf_stop rest inner]

theorem splitAtFence_stop {stop : CodeUnit} (solid : stop ∉ fence) (text rest : JsString) :
    splitAtFence (text ++ stop :: rest) =
      match splitAtFence text with
      | some parts => some (parts.1, parts.2 ++ stop :: rest)
      | none => (splitAtFence rest).map fun parts => (text ++ stop :: parts.1, parts.2) := by
  induction text with
  | nil =>
      have other : fence.isPrefixOf (stop :: rest) = false := by
        rw [← List.nil_append (stop :: rest), isPrefixOf_stop rest solid]
        rfl
      rw [List.nil_append, splitAtFence_cons other]
      rfl
  | cons code text inductionHypothesis =>
      have same : fence.isPrefixOf (code :: (text ++ stop :: rest)) =
          fence.isPrefixOf (code :: text) := by
        rw [← List.cons_append, isPrefixOf_stop rest solid]
      rw [List.cons_append, splitAtFence, splitAtFence, same]
      split_ifs with found
      · have long : fence.length ≤ (code :: text).length :=
          (List.isPrefixOf_iff_prefix.mp found).length_le
        rw [← List.cons_append, List.drop_append_of_le_length long]
      · rw [inductionHypothesis]
        cases splitAtFence text with
        | some parts => rfl
        | none =>
            simp only [Option.map_none, Option.map_map]
            rfl

theorem splitAtFence_eq_none {text : JsString} (absent : unit '\u0060' ∉ text) :
    splitAtFence text = none := by
  induction text with
  | nil => rfl
  | cons code text inductionHypothesis =>
      rw [List.mem_cons, not_or] at absent
      have other : fence.isPrefixOf (code :: text) = false := by
        rw [fence, show js "```" = unit '\u0060' :: js "``" by rfl, List.isPrefixOf,
          beq_false_of_ne absent.1, Bool.false_and]
      rw [splitAtFence_cons other, inductionHypothesis absent.2]
      rfl

theorem splitAtFence_front {front : JsString} (absent : unit '\u0060' ∉ front) (rest : JsString) :
    splitAtFence (front ++ rest) =
      (splitAtFence rest).map fun parts => (front ++ parts.1, parts.2) := by
  induction front with
  | nil => simp
  | cons code front inductionHypothesis =>
      rw [List.mem_cons, not_or] at absent
      have other : fence.isPrefixOf (code :: (front ++ rest)) = false := by
        rw [fence, show js "```" = unit '\u0060' :: js "``" by rfl, List.isPrefixOf,
          beq_false_of_ne absent.1, Bool.false_and]
      rw [List.cons_append, splitAtFence_cons other, inductionHypothesis absent.2, Option.map_map]
      rfl

theorem splitAtFence_fence (rest : JsString) : splitAtFence (fence ++ rest) = some ([], rest) := by
  rfl

theorem eq_of_splitAtFence {text : JsString} {parts : JsString × JsString}
    (split : splitAtFence text = some parts) : text = parts.1 ++ fence ++ parts.2 := by
  induction text generalizing parts with
  | nil => cases split
  | cons code text inductionHypothesis =>
      rw [splitAtFence] at split
      split_ifs at split with found
      · cases split
        obtain ⟨rest, shape⟩ := List.isPrefixOf_iff_prefix.mp found
        rw [← shape, List.drop_left]
        rfl
      · obtain ⟨inner, later, rfl⟩ := Option.map_eq_some_iff.mp split
        rw [inductionHypothesis later]
        rfl

/-- What follows the name of the language and the white space behind it. -/
def afterLanguage (text : JsString) : JsString :=
  (if (js "json").isPrefixOf text then text.drop 4 else text).dropWhile isSpace

theorem fenced_eq (raw : JsString) :
    fenced raw = (splitAtFence raw).bind fun parts =>
      (splitAtFence (afterLanguage parts.2)).map Prod.fst := rfl

theorem afterLanguage_stop {stop : CodeUnit} (solid : stop ∉ js "json")
    (visible : isSpace stop = false) (text rest : JsString) :
    afterLanguage (text ++ stop :: rest) = afterLanguage text ++ stop :: rest := by
  have drops : ∀ part : JsString,
      (part ++ stop :: rest).dropWhile isSpace = part.dropWhile isSpace ++ stop :: rest := by
    intro part
    rw [List.dropWhile_append]
    split_ifs with empty
    · rw [List.isEmpty_iff.mp empty, List.nil_append,
        List.dropWhile_cons_of_neg (by rw [visible]; exact Bool.false_ne_true)]
    · rfl
  rw [afterLanguage, afterLanguage, isPrefixOf_stop rest solid]
  split_ifs with named
  · have long : 4 ≤ text.length := (List.isPrefixOf_iff_prefix.mp named).length_le
    rw [List.drop_append_of_le_length long, drops]
  · exact drops text

/-- The name of the language and the white space that are passed over. -/
theorem exists_language (text : JsString) :
    ∃ lead, text = lead ++ afterLanguage text ∧ unit '"' ∉ lead ∧ unit '\\' ∉ lead := by
  have spaces : ∀ part : JsString, ∃ lead, part = lead ++ part.dropWhile isSpace ∧
      unit '"' ∉ lead ∧ unit '\\' ∉ lead := by
    intro part
    refine ⟨part.takeWhile isSpace, List.takeWhile_append_dropWhile.symm, fun member => ?_,
      fun member => ?_⟩
    · exact absurd (isSpace_of_mem_takeWhile part _ member) (by decide)
    · exact absurd (isSpace_of_mem_takeWhile part _ member) (by decide)
  rw [afterLanguage]
  split_ifs with named
  · obtain ⟨rest, rfl⟩ := List.isPrefixOf_iff_prefix.mp named
    obtain ⟨lead, shape, quotes, backslashes⟩ := spaces rest
    refine ⟨js "json" ++ lead, ?_, ?_, ?_⟩
    · rw [show ((js "json") ++ rest).drop 4 = rest from rfl, List.append_assoc, ← shape]
    · rw [List.mem_append, not_or]
      exact ⟨by decide, quotes⟩
    · rw [List.mem_append, not_or]
      exact ⟨by decide, backslashes⟩
  · exact spaces text

/-- What the first fence holds does not depend on the texts around the answer. -/
theorem fenced_between {text front back : JsString} (brackets : Bracketed text)
    (before : Bare front) (after : Bare back) : fenced (front ++ text ++ back) = fenced text := by
  obtain ⟨first, inner, last, shape, -, closes⟩ := brackets.shape
  have marks : last ∉ fence ∧ last ∉ js "json" ∧ isSpace last = false := by
    rcases closes with rfl | rfl <;> decide
  obtain ⟨unfenced, unnamed, visible⟩ := marks
  have behind : ∀ rest : JsString, unit '\u0060' ∉ rest →
      fenced (first :: inner ++ last :: rest) = fenced (first :: inner) := by
    intro rest absent
    have nothing := splitAtFence_eq_none absent
    rw [fenced_eq, fenced_eq, splitAtFence_stop unfenced, nothing]
    cases splitAtFence (first :: inner) with
    | none => rfl
    | some parts =>
        simp only [Option.bind_some]
        rw [afterLanguage_stop unnamed visible, splitAtFence_stop unfenced, nothing]
        cases splitAtFence (afterLanguage parts.2) <;> rfl
  have ahead : fenced (front ++ (text ++ back)) = fenced (text ++ back) := by
    rw [fenced_eq, fenced_eq, splitAtFence_front (before.not_mem (by decide))]
    cases splitAtFence (text ++ back) <;> rfl
  have closed : text = first :: inner ++ last :: [] := by rw [shape]; rfl
  have opened : text ++ back = first :: inner ++ last :: back := by rw [shape]; simp
  rw [List.append_assoc, ahead, opened, behind back (after.not_mem (by decide)), closed,
    behind [] List.not_mem_nil]

/-! ## The attempts -/

/-- What the first fence says, when it says something. -/
def fencedJson (raw : JsString) : Option JsValue :=
  (fenced raw).bind fun body => if body = [] then none else parseJson (trim body)

theorem extractJson_whole {raw : JsString} {value : JsValue}
    (parsed : parseJson (trim raw) = some value) : extractJson raw = .ok value := by
  simp [extractJson, parsed, List.reduceOption]

theorem extractJson_fenced {raw : JsString} {value : JsValue} (whole : parseJson (trim raw) = none)
    (inner : fencedJson raw = some value) : extractJson raw = .ok value := by
  rw [fencedJson] at inner
  simp [extractJson, whole, inner, List.reduceOption]

theorem extractJson_bracketed {raw text : JsString} {value : JsValue}
    (whole : parseJson (trim raw) = none) (inner : fencedJson raw = none)
    (brackets : bracketed raw = some text) (parsed : parseJson text = some value) :
    extractJson raw = .ok value := by
  rw [fencedJson] at inner
  simp [extractJson, whole, inner, brackets, parsed, List.reduceOption]

/-! ## The answer and the text around it -/

theorem bracketed_stringify {answer : JsValue} (container : answer.isContainer = true) :
    Bracketed answer.stringify := by
  cases answer with
  | array items => exact ⟨_, _, _, rfl, Or.inr rfl, Or.inr rfl⟩
  | object members => exact ⟨_, _, _, rfl, Or.inl rfl, Or.inl rfl⟩
  | _ => cases container

/-- The brackets of a text are not white space. -/
theorem Bracketed.solid {text : JsString} (brackets : Bracketed text) :
    (∀ code, text.head? = some code → isSpace code = false) ∧
      ∀ code, text.getLast? = some code → isSpace code = false := by
  obtain ⟨first, inner, last, rfl, opens, closes⟩ := brackets.shape
  constructor
  · intro code same
    cases same
    rcases opens with rfl | rfl <;> decide
  · intro code same
    rw [← List.cons_append, List.getLast?_concat] at same
    cases same
    rcases closes with rfl | rfl <;> decide

/-- The text of a value, a state in front of a part of it, and that the part is read from there. -/
theorem exists_reading {answer : JsValue} (json : answer.isJson = true) {front part back : JsString}
    (text : answer.stringify = front ++ part ++ back) :
    ∃ state last, runFrom startState front = some state ∧ runFrom state part = some last ∧
      state.Spelled ∧ ∃ final, runFrom last (back ++ [unit ' ']) = some final := by
  have parsed := parseJson_stringify json
  obtain ⟨final, ran, -⟩ := Option.bind_eq_some_iff.mp parsed
  rw [text, List.append_assoc, List.append_assoc, runFrom_append] at ran
  obtain ⟨state, before, ran⟩ := Option.bind_eq_some_iff.mp ran
  rw [runFrom_append] at ran
  obtain ⟨last, read, rest⟩ := Option.bind_eq_some_iff.mp ran
  exact ⟨state, last, before, read, runFrom_spelled spelled_startState before, final, rest⟩

/-- Where a fence stands in the text of a value, there is a string. -/
theorem inside_of_fence {answer : JsValue} (json : answer.isJson = true) {front back : JsString}
    (text : answer.stringify = front ++ fence ++ back) :
    ∃ state last, runFrom startState front = some state ∧ runFrom state fence = some last ∧
      state.place = .plain ∧ last.place = .plain ∧ last.Spelled := by
  obtain ⟨state, last, before, read, spelled, -⟩ := exists_reading json text
  have split : fence = unit '\u0060' :: js "``" := rfl
  have whole := read
  rw [split, runFrom_cons] at whole
  obtain ⟨next, stepped, -⟩ := Option.bind_eq_some_iff.mp whole
  have inside := inside_of_backquote spelled stepped
  exact ⟨state, last, before, read, inside,
    (runFrom_inside inside (by decide) (by decide) read).1, runFrom_spelled spelled read⟩

/-- What a fence in a string of the answer holds says nothing with a back quote in it. -/
theorem fencedJson_ne {answer : JsValue} (json : answer.isJson = true) :
    fencedJson answer.stringify ≠ some answer := by
  intro found
  obtain ⟨body, inner, parsed⟩ := Option.bind_eq_some_iff.mp found
  split_ifs at parsed
  rw [fenced_eq] at inner
  obtain ⟨⟨front, behind⟩, first, closing⟩ := Option.bind_eq_some_iff.mp inner
  obtain ⟨⟨held, after⟩, second, rfl⟩ := Option.map_eq_some_iff.mp closing
  have opened : answer.stringify = front ++ fence ++ behind := eq_of_splitAtFence first
  have closed : afterLanguage behind = held ++ fence ++ after := eq_of_splitAtFence second
  obtain ⟨language, named, noQuotes, noBackslashes⟩ := exists_language behind
  obtain ⟨blank, trail, shape, spaces, -⟩ := exists_trim held
  -- up to what the fence holds the machine stays in the string
  have text : answer.stringify =
      front ++ fence ++ (language ++ blank) ++ (trim held ++ (trail ++ fence ++ after)) := by
    rw [opened, named, closed]
    nth_rewrite 1 [shape]
    simp only [List.append_assoc]
  obtain ⟨state, last, before, read, -, inside, spelled⟩ := inside_of_fence json opened
  obtain ⟨start, middle, reached, passed, known, final, rest⟩ := exists_reading json
    (text.trans (List.append_assoc (front ++ fence ++ (language ++ blank)) _ _).symm)
  rw [runFrom_append, runFrom_append, before, Option.bind_some, read, Option.bind_some] at reached
  have still : start.place = .plain := by
    refine (runFrom_inside inside ?_ ?_ reached).1
    · rw [List.mem_append, not_or]
      exact ⟨noQuotes, fun member => absurd (spaces _ member) (by decide)⟩
    · rw [List.mem_append, not_or]
      exact ⟨noBackslashes, fun member => absurd (spaces _ member) (by decide)⟩
  obtain ⟨complete, ran, -⟩ := Option.bind_eq_some_iff.mp parsed
  rw [runFrom_append] at ran
  obtain ⟨ending, own, -⟩ := Option.bind_eq_some_iff.mp ran
  have plain := opposite_run known spelled_startState (Or.inr ⟨still, rfl⟩) passed own
  refine silent_of_parseJson plain parsed ?_
  rw [opened]
  simp [fence, js, unit]

/-- The closing bracket completes an array or object. -/
theorem runFrom_container {answer : JsValue} (json : answer.isJson = true)
    (container : answer.isContainer = true) :
    runFrom startState answer.stringify = some ⟨.done answer, []⟩ := by
  have read := readBack_of_isJson answer json [] (unit ' ') [] (by decide)
  rw [runFrom_append] at read
  obtain ⟨⟨mode, frames⟩, ran, ending⟩ := Option.bind_eq_some_iff.mp read
  obtain ⟨next, stepped, same⟩ := Option.bind_eq_some_iff.mp ending
  cases same
  have spelled := runFrom_spelled spelled_startState ran
  rw [startState, ran]
  cases mode with
  | done value =>
      cases stepped
      rfl
  | word value missing =>
      have letters := spelled value missing rfl
      cases missing with
      | nil => cases stepped
      | cons letter rest =>
          have other : unit ' ' ≠ letter := by
            rintro rfl
            exact absurd (letters _ List.mem_cons_self) (by decide)
          cases rest <;> simp [step, other] at stepped
  | numeral read =>
      obtain ⟨decimal, -, settled⟩ := Option.bind_eq_some_iff.mp stepped
      cases settled
      cases container
  | string role escape read =>
      cases escape with
      | none => cases stepped
      | backslash => cases stepped
      | hex => cases stepped
  | _ => cases stepped

/-- A text that is more than the answer and white space says something else. -/
theorem parseJson_around_ne {answer : JsValue} (json : answer.isJson = true)
    (container : answer.isContainer = true) {front back : JsString} (before : Bare front)
    (more : ¬ ∀ code ∈ front ++ back, isSpace code = true) :
    parseJson (trim (front ++ answer.stringify ++ back)) ≠ some answer := by
  intro parsed
  by_cases blank : ∀ code ∈ front, isSpace code = true
  · have visible : ¬ ∀ code ∈ back, isSpace code = true := fun spaces => more fun code member =>
      (List.mem_append.mp member).elim (blank code) (spaces code)
    obtain ⟨gap, trail, shape, gaps, trails, -, ends⟩ := exists_trim back
    obtain ⟨lead, code, rest, split, leads, solid⟩ := exists_solid visible
    obtain ⟨beyond, trimmed⟩ := exists_trim_cons rest leads solid
    rw [← split] at trimmed
    have kept : trim (front ++ (answer.stringify ++ (gap ++ trim back)) ++ trail) =
        answer.stringify ++ (gap ++ trim back) := by
      refine trim_between blank (fun other same => ?_) (fun other same => ?_) trails
      · obtain ⟨opening, inner, text, -⟩ := answer.stringify_start
        have starts := (bracketed_stringify container).solid.1
        rw [text] at same starts
        exact starts other same
      · rw [trimmed, List.getLast?_append_of_ne_nil _ (by simp),
          List.getLast?_append_of_ne_nil _ (by simp), ← trimmed] at same
        exact ends other same
    have whole : front ++ answer.stringify ++ back =
        front ++ (answer.stringify ++ (gap ++ trim back)) ++ trail := by
      nth_rewrite 1 [shape]
      simp only [List.append_assoc]
    rw [whole, kept] at parsed
    obtain ⟨final, ran, -⟩ := Option.bind_eq_some_iff.mp parsed
    rw [List.append_assoc, runFrom_append, runFrom_container json container] at ran
    have spaces := (ParseState.Closed.runFrom ⟨answer, rfl⟩ ran).2 code (by simp [trimmed])
    rw [isSpace_of_isJsonSpace spaces] at solid
    cases solid
  · obtain ⟨lead, code, rest, rfl, leads, solid⟩ := exists_solid blank
    obtain ⟨behind, trimmed⟩ := exists_trim_cons (rest ++ answer.stringify ++ back) leads solid
    have text : lead ++ code :: rest ++ answer.stringify ++ back =
        lead ++ code :: (rest ++ answer.stringify ++ back) := by simp
    rw [text, trimmed] at parsed
    have other := before code (by simp)
    rw [isContainer_of_start solid (fun same => other (by rw [same]; decide))
      (fun same => other (by rw [same]; decide)) parsed] at container
    cases container

/-! ## The three places of an answer -/

/-- What is asked of the extraction: the answer is found on its own, between two texts and in a
code fence between two texts. -/
structure RecoversAnswer (answer : JsValue) (front back : JsString) : Prop where
  alone : extractJson answer.stringify = .ok answer
  between : extractJson (front ++ answer.stringify ++ back) = .ok answer
  fenced : extractJson (front ++ js "```json\n" ++ answer.stringify ++ js "\n```" ++ back) = .ok answer

/-- No earlier attempt finds anything: the answer stands alone, or neither is the whole text JSON
text nor is what the first fence in the answer holds. -/
def Undisturbed (answer : JsValue) (front back : JsString) : Prop :=
  (∀ code ∈ front ++ back, isSpace code = true) ∨
    parseJson (trim (front ++ answer.stringify ++ back)) = none ∧
      ∀ body, Llm.fenced answer.stringify = some body → body ≠ [] → parseJson (trim body) = none

theorem fencedJson_eq_none {raw : JsString} :
    fencedJson raw = none ↔
      ∀ body, fenced raw = some body → body ≠ [] → parseJson (trim body) = none := by
  rw [fencedJson, Option.bind_eq_none_iff]
  refine forall_congr' fun body => imp_congr_right fun _ => ?_
  split_ifs with empty
  · exact iff_of_true rfl fun visible => absurd empty visible
  · exact (imp_iff_right empty).symm

/-- A text with a code fence in it is no JSON text. -/
theorem parseJson_fence (answer : JsValue) (front back : JsString) :
    parseJson (trim (front ++ js "```json\n" ++ answer.stringify ++ js "\n```" ++ back)) = none := by
  have ends : ∀ code, (js "```json\n" ++ answer.stringify ++ js "\n```").getLast? = some code →
      isSpace code = false := by
    intro code same
    rw [List.getLast?_append_of_ne_nil _ (by decide)] at same
    cases same
    decide
  have starts : ∀ code, (js "```json\n" ++ answer.stringify ++ js "\n```").head? = some code →
      isSpace code = false := by
    rintro _ ⟨⟩
    decide
  have nonempty : js "```json\n" ++ answer.stringify ++ js "\n```" ≠ [] := List.cons_ne_nil _ _
  obtain ⟨before, after, trimmed⟩ := exists_trim_around nonempty starts ends front back
  have whole : front ++ js "```json\n" ++ answer.stringify ++ js "\n```" ++ back =
      front ++ (js "```json\n" ++ answer.stringify ++ js "\n```") ++ back := by
    simp only [List.append_assoc]
  cases parsed : parseJson
      (trim (front ++ js "```json\n" ++ answer.stringify ++ js "\n```" ++ back)) with
  | none => rfl
  | some value =>
      rw [whole, trimmed] at parsed
      obtain ⟨final, ran, -⟩ := Option.bind_eq_some_iff.mp parsed
      rw [List.append_assoc, List.append_assoc, runFrom_append] at ran
      obtain ⟨state, read, ran⟩ := Option.bind_eq_some_iff.mp ran
      have spelled := runFrom_spelled spelled_startState read
      have line : js "```json\n" ++ answer.stringify ++ js "\n```" ++ (after ++ [unit ' ']) =
          unit '\u0060' :: (js "``json" ++ unit '\n' ::
            (answer.stringify ++ js "\n```" ++ (after ++ [unit ' ']))) := by
        simp only [List.append_assoc]
        rfl
      rw [line, runFrom_fencedLine spelled (by decide) (by decide)] at ran
      cases ran

section Answer

variable {answer : JsValue} (json : answer.isJson = true) (container : answer.isContainer = true)
  {front back : JsString} (before : Bare front) (after : Bare back)

include json container

theorem extractJson_blank (blank : ∀ code ∈ front ++ back, isSpace code = true) :
    extractJson (front ++ answer.stringify ++ back) = .ok answer := by
  obtain ⟨starts, ends⟩ := (bracketed_stringify container).solid
  refine extractJson_whole ?_
  rw [trim_between (fun code member => blank code (List.mem_append_left _ member)) starts ends
    fun code member => blank code (List.mem_append_right _ member)]
  exact parseJson_stringify json

include before

/-- What a code fence around the answer holds says the answer, or breaks off in a string. -/
theorem fencedJson_fence :
    fencedJson (front ++ js "```json\n" ++ answer.stringify ++ js "\n```" ++ back) = none ∨
      fencedJson (front ++ js "```json\n" ++ answer.stringify ++ js "\n```" ++ back) = some answer := by
  have brackets := bracketed_stringify container
  obtain ⟨first, inner, last, shape, opens, closes⟩ := brackets.shape
  have unfenced : last ∉ fence := by
    rcases closes with rfl | rfl <;> decide
  have visible : isSpace first = false := by
    rcases opens with rfl | rfl <;> decide
  have closed : answer.stringify = first :: inner ++ last :: [] := by rw [shape]; rfl
  have whole : front ++ js "```json\n" ++ answer.stringify ++ js "\n```" ++ back =
      front ++ (fence ++ (js "json\n" ++ (first :: inner ++ last :: (js "\n" ++ (fence ++ back))))) := by
    rw [closed]
    simp only [List.append_assoc, List.cons_append, List.nil_append]
    rfl
  have language : afterLanguage
      (js "json\n" ++ (first :: inner ++ last :: (js "\n" ++ (fence ++ back)))) =
        first :: inner ++ last :: (js "\n" ++ (fence ++ back)) := by
    have dropped : afterLanguage
        (js "json\n" ++ (first :: inner ++ last :: (js "\n" ++ (fence ++ back)))) =
          (first :: inner ++ last :: (js "\n" ++ (fence ++ back))).dropWhile isSpace := rfl
    rw [dropped, List.cons_append,
      List.dropWhile_cons_of_neg (by rw [visible]; exact Bool.false_ne_true)]
  have held : fenced (front ++ js "```json\n" ++ answer.stringify ++ js "\n```" ++ back) =
      (splitAtFence (first :: inner ++ last :: (js "\n" ++ (fence ++ back)))).map Prod.fst := by
    rw [whole, fenced_eq, splitAtFence_front (before.not_mem (by decide)), splitAtFence_fence,
      Option.map_some, Option.bind_some, language]
  rw [fencedJson, held, splitAtFence_stop unfenced]
  cases split : splitAtFence (first :: inner) with
  | none =>
      right
      have text : first :: inner ++ last :: js "\n" = answer.stringify ++ js "\n" := by
        rw [closed]
        simp
      have trimmed : trim (answer.stringify ++ js "\n") = answer.stringify := by
        have spaces : ∀ code ∈ js "\n", isSpace code = true := by
          intro code member
          rw [List.mem_singleton.mp member]
          rfl
        exact @trim_between [] _ (js "\n") nofun brackets.solid.1 brackets.solid.2 spaces
      simp only [splitAtFence_front (show unit '\u0060' ∉ js "\n" by decide), splitAtFence_fence]
      simp only [Option.map_some, Option.bind_some, List.append_nil, text, trimmed]
      rw [if_neg (by simp [closed]), parseJson_stringify json]
  | some parts =>
      left
      have opened : answer.stringify = parts.1 ++ fence ++ (parts.2 ++ [last]) := by
        rw [closed, eq_of_splitAtFence split]
        simp
      obtain ⟨state, -, read, -, inside, -⟩ := inside_of_fence json opened
      have nothing := parseJson_trim_of_inside read (by rw [inside]; exact nofun)
      simp only [Option.map_some, Option.bind_some, nothing, ite_self]

include after

theorem extractJson_between_iff :
    extractJson (front ++ answer.stringify ++ back) = .ok answer ↔ Undisturbed answer front back := by
  have brackets := bracketed_stringify container
  have sameFence : fencedJson (front ++ answer.stringify ++ back) = fencedJson answer.stringify := by
    rw [fencedJson, fencedJson, fenced_between brackets before after]
  constructor
  · intro extracted
    refine or_iff_not_imp_left.mpr fun more => ?_
    have whole : parseJson (trim (front ++ answer.stringify ++ back)) = none := by
      cases parsed : parseJson (trim (front ++ answer.stringify ++ back)) with
      | none => rfl
      | some value =>
          rw [extractJson_whole parsed] at extracted
          cases extracted
          exact absurd parsed (parseJson_around_ne json container before more)
    refine ⟨whole, fencedJson_eq_none.mp ?_⟩
    cases inner : fencedJson answer.stringify with
    | none => rfl
    | some value =>
        rw [extractJson_fenced whole (sameFence.trans inner)] at extracted
        cases extracted
        exact absurd inner (fencedJson_ne json)
  · rintro (blank | ⟨whole, unfenced⟩)
    · exact extractJson_blank json container blank
    · exact extractJson_bracketed whole (sameFence.trans (fencedJson_eq_none.mpr unfenced))
        (bracketed_between brackets before.unbracketed after.unbracketed) (parseJson_stringify json)

theorem extractJson_fence :
    extractJson (front ++ js "```json\n" ++ answer.stringify ++ js "\n```" ++ back) = .ok answer := by
  have whole := parseJson_fence answer front back
  rcases fencedJson_fence json container before with nothing | found
  · have marked : Unbracketed (js "```json\n") := unbracketed_of_all (by decide)
    have other : Unbracketed (js "\n```") := unbracketed_of_all (by decide)
    have text : front ++ js "```json\n" ++ answer.stringify ++ js "\n```" ++ back =
        (front ++ js "```json\n") ++ answer.stringify ++ (js "\n```" ++ back) := by
      simp only [List.append_assoc]
    refine extractJson_bracketed whole nothing ?_ (parseJson_stringify json)
    rw [text]
    exact bracketed_between (bracketed_stringify container) (before.unbracketed.append marked)
      (other.append after.unbracketed)
  · exact extractJson_fenced whole found

/-- The answer is recovered exactly when no earlier attempt finds anything else. -/
theorem extraction_iff : RecoversAnswer answer front back ↔ Undisturbed answer front back := by
  constructor
  · intro recovers
    exact (extractJson_between_iff json container before after).mp recovers.between
  · intro undisturbed
    refine ⟨?_, (extractJson_between_iff json container before after).mpr undisturbed,
      extractJson_fence json container before after⟩
    have alone := @extractJson_blank answer json container [] [] nofun
    rwa [List.nil_append, List.append_nil] at alone

end Answer

/-- An answer in a sentence. -/
theorem extraction_sample :
    RecoversAnswer (.object [(js "a", .array [.bool true])]) (js "Use ") (js " now.") := by
  refine (extraction_iff (by decide) rfl (bare_of_all (by decide)) (bare_of_all (by decide))).mpr
    (Or.inr ⟨Option.isNone_iff_eq_none.mp (by decide +kernel), fencedJson_eq_none.mp ?_⟩)
  exact Option.isNone_iff_eq_none.mp (by decide +kernel)

/-- An answer with a code fence in a string of it: what the fence holds is taken for the answer. -/
theorem not_extraction :
    ¬ ∀ (answer : JsValue) (front back : JsString), answer.isJson = true →
      answer.isContainer = true → Bare front → Bare back → RecoversAnswer answer front back := by
  intro recovers
  have recovered := recovers (.object [(js "a", .string (js "```true```"))]) (js "Use ") (js "")
    (by decide) rfl (bare_of_all (by decide)) (bare_of_all (by decide))
  have other : (extractJson (js "Use " ++
      (JsValue.object [(js "a", .string (js "```true```"))]).stringify ++ js "")).toOption.map
        JsValue.isContainer = some false := by
    decide +kernel
  rw [recovered.between] at other
  cases other

end SpecAsCode.Llm
