import SpecAsCode.Js.Spaced

/-!
# Printing JSON with indentation

`JSON.stringify(value, null, 2)`, and what is read back from the text.
-/

namespace SpecAsCode.Js

open SpecAsCode.Text

/-- The start of a line at a given depth. -/
def lineBreak (depth : Nat) : JsString :=
  unit '\n' :: List.replicate (2 * depth) (unit ' ')

/-- Texts on lines of their own, with commas between them. -/
def lineJoin (depth : Nat) : List JsString → JsString
  | [] => []
  | [text] => text
  | text :: next :: rest => text ++ unit ',' :: (lineBreak depth ++ lineJoin depth (next :: rest))

/-- What stands between the brackets of an array or an object. -/
def block (depth : Nat) (texts : List JsString) : JsString :=
  if texts = [] then
    []
  else
    lineBreak (depth + 1) ++ (lineJoin (depth + 1) texts ++ lineBreak depth)

mutual

/-- `JSON.stringify(value, null, 2)` at a given depth. -/
def JsValue.indented (depth : Nat) : JsValue → JsString
  | .array items => unit '[' :: (block depth (indentedItems (depth + 1) items) ++ [unit ']'])
  | .object members => unit '{' :: (block depth (indentedMembers (depth + 1) members) ++ [unit '}'])
  | value => value.stringify

/-- The texts of the items of an array. -/
def indentedItems (depth : Nat) : List JsValue → List JsString
  | [] => []
  | item :: rest => item.indented depth :: indentedItems depth rest

/-- The texts of the members of an object.  Undefined properties are left out. -/
def indentedMembers (depth : Nat) : Members → List JsString
  | [] => []
  | (key, value) :: rest =>
      if value.isUndefined then
        indentedMembers depth rest
      else
        (quote key ++ unit ':' :: unit ' ' :: value.indented depth) :: indentedMembers depth rest

end

example : (JsValue.object [(js "a", .array [.null, .array []]), (js "b", .undefined)]).indented 0 =
    js "\x7b\n  \"a\": [\n    null,\n    []\n  ]\n\x7d" := by
  decide

/-! ## As a gap of two -/

theorem lineBreak_eq (depth : Nat) : lineBreak depth = gapBreak (2 * depth) := rfl

theorem lineJoin_eq (depth : Nat) (texts : List JsString) :
    lineJoin depth texts = gapJoin (2 * depth) texts := by
  fun_induction lineJoin depth texts with
  | case1 => rfl
  | case2 => rfl
  | case3 text next rest inductionHypothesis =>
      rw [gapJoin, inductionHypothesis, lineBreak_eq]

theorem block_eq (depth : Nat) (texts : List JsString) :
    block depth texts = gapBlock 2 (2 * depth) texts := by
  rw [block, gapBlock, lineJoin_eq, lineBreak_eq, lineBreak_eq]
  rfl

/-- An indented text is a text with a gap of two. -/
theorem indented_eq_spaced (value : JsValue) :
    ∀ depth, value.indented depth = value.spaced 2 (2 * depth) := by
  induction value using JsValue.induction with
  | undefined => exact fun _ => rfl
  | null => exact fun _ => rfl
  | bool _ => exact fun _ => rfl
  | number _ => exact fun _ => rfl
  | string _ => exact fun _ => rfl
  | array items inductionHypothesis =>
      intro depth
      have texts : indentedItems (depth + 1) items = spacedItems 2 (2 * depth + 2) items := by
        induction items with
        | nil => rfl
        | cons item rest itemsHypothesis =>
            rw [indentedItems, spacedItems, inductionHypothesis item List.mem_cons_self,
              itemsHypothesis fun other member =>
                inductionHypothesis other (List.mem_cons_of_mem _ member)]
            rfl
      rw [JsValue.indented, JsValue.spaced, block_eq, texts]
  | object members inductionHypothesis =>
      intro depth
      have texts : indentedMembers (depth + 1) members = spacedMembers 2 (2 * depth + 2) members := by
        induction members with
        | nil => rfl
        | cons member rest membersHypothesis =>
            rw [indentedMembers, spacedMembers, inductionHypothesis member List.mem_cons_self,
              membersHypothesis fun other found =>
                inductionHypothesis other (List.mem_cons_of_mem _ found)]
            rfl
      rw [JsValue.indented, JsValue.spaced, block_eq, texts]

/-- `JSON.stringify(value, null, 2) + "\n"` as a file. -/
def JsValue.file (value : JsValue) : List Octet :=
  encodeUtf8 (value.indented 0 ++ [unit '\n'])

/-- `JSON.parse(readFileSync(file, "utf8"))`. -/
def parseFile (octets : List Octet) : Option JsValue :=
  parseJson (decodeUtf8 octets)

/-- A value that was written to a file is read from it. -/
theorem parseFile_file {value : JsValue} (json : value.isJson = true) :
    parseFile value.file = some value := by
  have wellFormed : isWellFormedText (value.indented 0 ++ [unit '\n']) = true :=
    isWellFormedText_append (indented_eq_spaced value 0 ▸ wellFormed_spaced value 0) (by decide)
  have decoded : decodeUtf8 (encodeUtf8 (value.indented 0 ++ [unit '\n'])) =
      value.indented 0 ++ [unit '\n'] := by
    have read := decodeUtf8_encodeUtf8 _ wellFormed []
    simpa [decodeUtf8, decodeFrom, Decoder.flush] using read
  rw [parseFile, JsValue.file, decoded, indented_eq_spaced, parseJson_spaced json]

end SpecAsCode.Js
