import SpecAsCode.Js.Numeral
import SpecAsCode.Js.PropertyOrder

/-!
# Printing JSON

`JSON.stringify` without indentation.
-/

namespace SpecAsCode.Js

/-- The code units that start a surrogate pair. -/
def isHighSurrogate (code : CodeUnit) : Bool :=
  0xD800 ≤ code.val && code.val < 0xDC00

/-- The code units that end a surrogate pair. -/
def isLowSurrogate (code : CodeUnit) : Bool :=
  0xDC00 ≤ code.val && code.val < 0xE000

/-- A hexadecimal digit in lower case. -/
def hexUnit (digit : Nat) : CodeUnit :=
  if digit < 10 then Fin.ofNat 65536 (48 + digit) else Fin.ofNat 65536 (87 + digit)

/-- A `\u` escape. -/
def unicodeEscape (code : CodeUnit) : JsString :=
  [unit '\\', unit 'u', hexUnit (code.val / 4096), hexUnit (code.val / 256 % 16),
    hexUnit (code.val / 16 % 16), hexUnit (code.val % 16)]

/-- The letter of a short escape, for the code units that have one. -/
def shortEscape (code : CodeUnit) : Option CodeUnit :=
  if code = unit '"' then some (unit '"')
  else if code = unit '\\' then some (unit '\\')
  else if code.val = 8 then some (unit 'b')
  else if code.val = 12 then some (unit 'f')
  else if code.val = 10 then some (unit 'n')
  else if code.val = 13 then some (unit 'r')
  else if code.val = 9 then some (unit 't')
  else none

/-- A code unit of a string that is not part of a surrogate pair. -/
def quoteUnit (code : CodeUnit) : JsString :=
  match shortEscape code with
  | some letter => [unit '\\', letter]
  | none =>
      if code.val < 32 ∨ isHighSurrogate code ∨ isLowSurrogate code then
        unicodeEscape code
      else
        [code]

/-- The text between the quotation marks of a string literal. -/
def quoteUnits : JsString → JsString
  | [] => []
  | [code] => quoteUnit code
  | first :: second :: rest =>
      if isHighSurrogate first && isLowSurrogate second then
        first :: second :: quoteUnits rest
      else
        quoteUnit first ++ quoteUnits (second :: rest)

/-- A string literal. -/
def quote (text : JsString) : JsString :=
  unit '"' :: (quoteUnits text ++ [unit '"'])

/-- Texts with commas between them. -/
def commaJoin : List JsString → JsString
  | [] => []
  | [text] => text
  | text :: next :: rest => text ++ unit ',' :: commaJoin (next :: rest)

mutual

/-- `JSON.stringify` of a value that is not `undefined`; inside an array `undefined`
is printed as `null`, and so are the numbers that are not finite. -/
def JsValue.stringify : JsValue → JsString
  | .undefined => js "null"
  | .null => js "null"
  | .bool true => js "true"
  | .bool false => js "false"
  | .number (.finite value) => value.name.text
  | .number .nan => js "null"
  | .number (.infinity _) => js "null"
  | .string value => quote value
  | .array items => unit '[' :: (commaJoin (stringifyItems items) ++ [unit ']'])
  | .object members => unit '{' :: (commaJoin (stringifyMembers members) ++ [unit '}'])

/-- The texts of the items of an array. -/
def stringifyItems : List JsValue → List JsString
  | [] => []
  | item :: rest => item.stringify :: stringifyItems rest

/-- The texts of the members of an object.  Undefined properties are left out. -/
def stringifyMembers : Members → List JsString
  | [] => []
  | (key, value) :: rest =>
      if value.isUndefined then
        stringifyMembers rest
      else
        (quote key ++ unit ':' :: value.stringify) :: stringifyMembers rest

end

example : (JsValue.object [(js "a", .array [.null, .bool true]), (js "b", .undefined),
    (js "c\n", .string (js "\""))]).stringify = js "\x7b\"a\":[null,true],\"c\\n\":\"\\\"\"\x7d" := by
  decide

/-- The first code unit of a printed value. -/
def startsValue (code : CodeUnit) : Bool :=
  code == unit '{' || code == unit '[' || code == unit '"' || code == unit 't' ||
    code == unit 'f' || code == unit 'n' || code == unit '-' || (digitOf code).isSome

theorem JsValue.stringify_start (value : JsValue) :
    ∃ first rest, value.stringify = first :: rest ∧ startsValue first = true := by
  cases value with
  | undefined => exact ⟨unit 'n', js "ull", rfl, by decide⟩
  | null => exact ⟨unit 'n', js "ull", rfl, by decide⟩
  | bool value =>
      cases value with
      | true => exact ⟨unit 't', js "rue", rfl, by decide⟩
      | false => exact ⟨unit 'f', js "alse", rfl, by decide⟩
  | number value =>
      cases value with
      | nan => exact ⟨unit 'n', js "ull", rfl, by decide⟩
      | infinity => exact ⟨unit 'n', js "ull", rfl, by decide⟩
      | finite value =>
          obtain ⟨first, rest, shape, start, -⟩ := value.name.text_shape
          refine ⟨first, rest, shape, ?_⟩
          rcases start with rfl | digit
          · decide
          · simp [startsValue, digit]
  | string value => exact ⟨unit '"', _, rfl, by decide⟩
  | array items => exact ⟨unit '[', _, rfl, by decide⟩
  | object members => exact ⟨unit '{', _, rfl, by decide⟩

end SpecAsCode.Js
