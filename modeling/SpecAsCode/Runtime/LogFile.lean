import SpecAsCode.Js.TornText
import SpecAsCode.Text.JsonText
import Mathlib.Data.List.TakeWhile

/-!
# Log files

A log file holds one JSON text a line.  The event log and the evidence log are read by
the same loop, which differs only in the schema of a record and in the checks a record
must pass to be pushed.  A last line without a newline at the end of the file is an
interrupted append, and is left out when it is not a record.
-/

namespace SpecAsCode.Runtime

open SpecAsCode.Js
open SpecAsCode.Text

/-- The newline. -/
def newline : CodeUnit :=
  unit '\n'

/-- Why a log is refused, with the number of the line. -/
inductive LoadError (Refusal : Type) where
  | corrupted (line : Nat)
  | invalid (line : Nat)
  | refused (line : Nat) (refusal : Refusal)

/-- The schema of a record, and the checks that push it. -/
structure LogReader (Record Store Refusal : Type) where
  schema : JsValue → Option Record
  accept : Store → Record → Except Refusal Store

section Reader

variable {Record Store Refusal : Type} (reader : LogReader Record Store Refusal)

/-- One line of a log. -/
def loadLine (tornTail : Bool) (number : Nat) (store : Store) (line : JsString) :
    Except (LoadError Refusal) Store :=
  if trim line = [] then
    .ok store
  else
    match parseJson (trim line) with
    | none => if tornTail then .ok store else .error (.corrupted number)
    | some value =>
        match reader.schema value with
        | none => if tornTail then .ok store else .error (.invalid number)
        | some record =>
            match reader.accept store record with
            | .error refusal => .error (.refused number refusal)
            | .ok next => .ok next

/-- The lines of a log from one on.  `complete` is whether the log ends with a newline. -/
def loadLines (complete : Bool) (number : Nat) (store : Store) :
    List JsString → Except (LoadError Refusal) Store
  | [] => .ok store
  | line :: rest =>
      (loadLine reader (rest.isEmpty && !complete) number store line).bind fun next =>
        loadLines complete (number + 1) next rest

/-- A log read as one text. -/
def loadText (fresh : Store) (raw : JsString) : Except (LoadError Refusal) Store :=
  loadLines reader (raw.getLast? == some newline) 1 fresh (raw.splitOn newline)

/-- `load` of a store that is still fresh; there may be no file. -/
def loadFile (fresh : Store) (file : Option (List Octet)) : Except (LoadError Refusal) Store :=
  match file with
  | none => .ok fresh
  | some octets => loadText reader fresh (decodeUtf8 octets)

end Reader

/-- `appendFileSync` of a line. -/
def appendLine (file : Option (List Octet)) (text : JsString) : Option (List Octet) :=
  some (file.getD [] ++ encodeUtf8 (text ++ [newline]))

/-- A sequence of appends of a store: the store and the file after it, and the new
records. -/
def appendEach {Store Input Record Error : Type}
    (append : Store → Option (List Octet) → Input → Except Error (Store × Record))
    (line : Record → JsString) (store : Store) (file : Option (List Octet)) :
    List Input → Except Error (Store × Option (List Octet) × List Record)
  | [] => .ok (store, file, [])
  | input :: rest =>
      (append store file input).bind fun (next, record) =>
        (appendEach append line next (appendLine file (line record)) rest).map
          fun (last, written, records) => (last, written, record :: records)

/-- The octets of some lines. -/
def lineOctets (texts : List JsString) : List Octet :=
  texts.flatMap fun text => encodeUtf8 (text ++ [newline])

theorem lineOctets_snoc (texts : List JsString) (text : JsString) :
    lineOctets (texts ++ [text]) = lineOctets texts ++ encodeUtf8 (text ++ [newline]) := by
  simp [lineOctets]

/-! ## Lines of printed objects -/

/-- The text of a record as it stands in a log. -/
structure LineText (text : JsString) : Prop where
  printed : Printed text
  object : ObjectText text
  record : RecordText text

private theorem newline_val : newline.val = 10 := rfl

private theorem quoteUnits_letter {letter : CodeUnit} (key : JsString) (low : 97 ≤ letter.val)
    (high : letter.val < 123) : ∃ rest, quoteUnits (letter :: key) = letter :: rest := by
  have notHigh : isHighSurrogate letter = false := by
    simp only [isHighSurrogate, Bool.and_eq_false_iff, decide_eq_false_iff_not]
    omega
  have notLow : isLowSurrogate letter = false := by
    simp only [isLowSurrogate, Bool.and_eq_false_iff, decide_eq_false_iff_not]
    omega
  have notShort : shortEscape letter = none := by
    have quotation : letter ≠ unit '"' := by
      rintro rfl
      exact absurd low (by decide)
    have backslash : letter ≠ unit '\\' := by
      rintro rfl
      exact absurd low (by decide)
    simp only [shortEscape, if_neg quotation, if_neg backslash]
    repeat rw [if_neg (by omega)]
  have single : quoteUnit letter = [letter] := by
    rw [quoteUnit, notShort]
    simp only [notHigh, notLow, Bool.false_eq_true, or_false]
    rw [if_neg (by omega)]
  cases key with
  | nil => exact ⟨[], by rw [quoteUnits, single]⟩
  | cons next key => exact ⟨quoteUnits (next :: key), by simp [quoteUnits, notHigh, single]⟩

/-- The text of a JSON object whose first key starts with a letter is a line. -/
theorem lineText_object {letter : CodeUnit} {key : JsString} {value : JsValue} {rest : Members}
    (json : (JsValue.object ((letter :: key, value) :: rest)).isJson = true)
    (low : 97 ≤ letter.val) (high : letter.val < 123) :
    LineText (JsValue.object ((letter :: key, value) :: rest)).stringify := by
  have defined : value.isUndefined = false := by
    rw [JsValue.isJson, Bool.and_eq_true, membersAreJson_iff] at json
    exact isUndefined_of_isJson (json.2 _ List.mem_cons_self)
  obtain ⟨tail, quoted⟩ := quoteUnits_letter key low high
  refine ⟨printed_stringify _, ⟨rfl, ?_, _, parseJson_stringify json⟩,
    ⟨⟨_, rfl, readBack_of_isJson _ json⟩, letter, ?_⟩⟩
  · rw [JsValue.stringify, ← List.cons_append]
    exact List.getLast?_concat ..
  · rw [JsValue.stringify, stringifyMembers, defined, if_neg (by simp), quote, quoted]
    cases stringifyMembers rest with
    | nil => exact ⟨_, rfl, low, high⟩
    | cons text texts => exact ⟨_, rfl, low, high⟩

theorem LineText.no_newline {text : JsString} (line : LineText text) : newline ∉ text := by
  intro member
  have low := line.printed.printable newline member
  rw [newline_val] at low
  omega

theorem LineText.ne_nil {text : JsString} (line : LineText text) : text ≠ [] := by
  rintro rfl
  exact absurd line.object.opens (by simp)

/-- Trimming takes white space off a text that does not start with any. -/
theorem trim_eq {first : CodeUnit} (rest : JsString) (solid : isSpace first = false) :
    ∃ kept spaces, first :: rest = (first :: kept) ++ spaces ∧ trim (first :: rest) = first :: kept ∧
      ∀ code ∈ spaces, isSpace code = true := by
  have start : (first :: rest).dropWhile isSpace = first :: rest := by
    simp [List.dropWhile, solid]
  have parts := List.takeWhile_append_dropWhile (p := isSpace) (l := (first :: rest).reverse)
  have joined : first :: rest = ((first :: rest).reverse.dropWhile isSpace).reverse ++
      ((first :: rest).reverse.takeWhile isSpace).reverse := by
    rw [← List.reverse_append, parts, List.reverse_reverse]
  have spaces : ∀ code ∈ ((first :: rest).reverse.takeWhile isSpace).reverse,
      isSpace code = true := by
    intro code member
    exact List.mem_takeWhile_imp (List.mem_reverse.mp member)
  have trimmed : trim (first :: rest) = ((first :: rest).reverse.dropWhile isSpace).reverse := by
    rw [trim, start]
  rw [← trimmed] at joined
  cases shape : trim (first :: rest) with
  | nil =>
      rw [shape, List.nil_append] at joined
      have space := spaces first (joined ▸ List.mem_cons_self)
      rw [solid] at space
      cases space
  | cons head kept =>
      rw [shape, List.cons_append] at joined
      obtain ⟨rfl, tail⟩ := List.cons.inj joined
      exact ⟨kept, _, by rw [List.cons_append, ← tail], rfl, spaces⟩

/-- A text that starts and ends with solid code units is trimmed already. -/
theorem trim_eq_self {text : JsString} {first last : CodeUnit} (head : text.head? = some first)
    (tail : text.getLast? = some last) (solid : isSpace first = false)
    (solidLast : isSpace last = false) : trim text = text := by
  cases text with
  | nil => cases head
  | cons code rest =>
      cases head
      obtain ⟨kept, spaces, split, trimmed, space⟩ := trim_eq rest solid
      cases spaces with
      | nil => rw [trimmed, split, List.append_nil]
      | cons other spaces =>
          rw [split, List.getLast?_append_of_ne_nil _ (by simp)] at tail
          have lastSpace := space last (List.mem_of_getLast? tail)
          rw [solidLast] at lastSpace
          cases lastSpace

theorem LineText.trim_eq {text : JsString} (line : LineText text) : trim text = text :=
  trim_eq_self line.object.opens line.object.closes (by decide) (by decide)

theorem LineText.encode {text : JsString} (line : LineText text) :
    encodeUtf8 (text ++ [newline]) = encodeUtf8 text ++ [octet 10] := by
  rw [encodeUtf8_append line.printed.wellFormed]
  rfl

theorem LineText.decode {text : JsString} (line : LineText text) :
    decodeUtf8 (encodeUtf8 text) = text := by
  have read := decodeUtf8_encodeUtf8 text line.printed.wellFormed []
  simpa [decodeUtf8, decodeFrom, Decoder.flush] using read

theorem LineText.encode_ne_nil {text : JsString} (line : LineText text) : encodeUtf8 text ≠ [] := by
  intro empty
  have read := line.decode
  rw [empty] at read
  exact line.ne_nil read.symm

/-- Written lines are read back, whatever follows them. -/
theorem decodeUtf8_lineOctets {texts : List JsString} (lines : ∀ text ∈ texts, LineText text)
    (rest : List Octet) :
    decodeUtf8 (lineOctets texts ++ rest) =
      texts.flatMap (fun text => text ++ [newline]) ++ decodeUtf8 rest := by
  induction texts with
  | nil => rfl
  | cons text texts inductionHypothesis =>
      have line := lines text List.mem_cons_self
      have wellFormed : isWellFormedText (text ++ [newline]) = true :=
        isWellFormedText_append line.printed.wellFormed (by decide)
      have later := inductionHypothesis fun other member => lines other (List.mem_cons_of_mem _ member)
      simp only [lineOctets, List.flatMap_cons, List.append_assoc] at later ⊢
      rw [decodeUtf8_encodeUtf8 _ wellFormed, later, List.append_assoc]

/-- The lines of a written log. -/
theorem splitOn_lines {texts : List JsString} (lines : ∀ text ∈ texts, LineText text)
    (rest : JsString) :
    (texts.flatMap (fun text => text ++ [newline]) ++ rest).splitOn newline =
      texts ++ rest.splitOn newline := by
  induction texts with
  | nil => rfl
  | cons text texts inductionHypothesis =>
      have line := lines text List.mem_cons_self
      have later := inductionHypothesis fun other member => lines other (List.mem_cons_of_mem _ member)
      rw [List.flatMap_cons, List.append_assoc, List.append_assoc, List.singleton_append,
        List.splitOn_append_cons_self, List.splitOn_eq_singleton line.no_newline, later]
      rfl

end SpecAsCode.Runtime
