import SpecAsCode.Js.Stringify
import Mathlib.Data.Option.Basic

/-!
# Parsing JSON

`JSON.parse` as a machine that reads one code unit at a time.  The machine keeps the
arrays and objects it is inside of on a stack, the innermost one first.  A numeral has
no closing mark, so its code units are collected until another code unit follows.
-/

namespace SpecAsCode.Js

/-- Where the string being read goes. -/
inductive StringRole where
  | value
  | key (members : Members)

/-- What a string literal has open: nothing, a backslash, or the digits of a `\u`
escape. -/
inductive Escape where
  | none
  | backslash
  | hex (missing value : Nat)

/-- What the machine reads next. -/
inductive Mode where
  /-- A value. -/
  | value
  /-- The first item of an array, or its end. -/
  | firstItem
  /-- The first key of an object, or its end. -/
  | firstKey
  /-- A key after a comma. -/
  | key (members : Members)
  /-- The colon after a key. -/
  | colon (members : Members) (key : JsString)
  /-- What follows a complete value. -/
  | done (value : JsValue)
  /-- More of a string literal. -/
  | string (role : StringRole) (escape : Escape) (read : JsString)
  /-- The rest of `true`, `false` or `null`. -/
  | word (value : JsValue) (missing : JsString)
  /-- More of a numeral. -/
  | numeral (read : JsString)

/-- An array or object whose next element is being read. -/
inductive Frame where
  | array (items : List JsValue)
  | member (members : Members) (key : JsString)

/-- A state of the machine. -/
structure ParseState where
  mode : Mode
  frames : List Frame

/-- White space of JSON texts. -/
def isJsonSpace (code : CodeUnit) : Bool :=
  code.val == 32 || code.val == 9 || code.val == 10 || code.val == 13

/-- The value of a hexadecimal digit. -/
def hexValue (code : CodeUnit) : Option Nat :=
  if 48 ≤ code.val ∧ code.val < 58 then some (code.val - 48)
  else if 97 ≤ code.val ∧ code.val < 103 then some (code.val - 87)
  else if 65 ≤ code.val ∧ code.val < 71 then some (code.val - 55)
  else none

/-- The code unit a short escape stands for. -/
def shortValue (letter : CodeUnit) : Option CodeUnit :=
  if letter = unit '"' then some (unit '"')
  else if letter = unit '\\' then some (unit '\\')
  else if letter = unit '/' then some (unit '/')
  else if letter = unit 'b' then some 8
  else if letter = unit 'f' then some 12
  else if letter = unit 'n' then some 10
  else if letter = unit 'r' then some 13
  else if letter = unit 't' then some 9
  else none

/-- The first code unit of a value. -/
def startValue (frames : List Frame) (code : CodeUnit) : Option ParseState :=
  if code = unit '{' then some ⟨.firstKey, frames⟩
  else if code = unit '[' then some ⟨.firstItem, .array [] :: frames⟩
  else if code = unit '"' then some ⟨.string .value .none [], frames⟩
  else if code = unit 't' then some ⟨.word (.bool true) (js "rue"), frames⟩
  else if code = unit 'f' then some ⟨.word (.bool false) (js "alse"), frames⟩
  else if code = unit 'n' then some ⟨.word .null (js "ull"), frames⟩
  else if code = unit '-' ∨ (digitOf code).isSome then some ⟨.numeral [code], frames⟩
  else none

/-- A code unit after a complete value. -/
def afterValue (value : JsValue) (frames : List Frame) (code : CodeUnit) : Option ParseState :=
  if isJsonSpace code then
    some ⟨.done value, frames⟩
  else
    match frames with
    | [] => none
    | .array items :: outer =>
        if code = unit ',' then some ⟨.value, .array (items ++ [value]) :: outer⟩
        else if code = unit ']' then some ⟨.done (.array (items ++ [value])), outer⟩
        else none
    | .member members key :: outer =>
        if code = unit ',' then some ⟨.key (setProperty key value members), outer⟩
        else if code = unit '}' then
          some ⟨.done (.object (setProperty key value members)), outer⟩
        else none

/-- The end of a string literal. -/
def endString (role : StringRole) (text : JsString) : Mode :=
  match role with
  | .value => .done (.string text)
  | .key members => .colon members text

/-- A code unit inside a string literal. -/
def stringStep (role : StringRole) (escape : Escape) (read : JsString) (code : CodeUnit) :
    Option Mode :=
  match escape with
  | .none =>
      if code = unit '"' then some (endString role read)
      else if code = unit '\\' then some (.string role .backslash read)
      else if code.val < 32 then none
      else some (.string role .none (read ++ [code]))
  | .backslash =>
      if code = unit 'u' then some (.string role (.hex 4 0) read)
      else (shortValue code).map fun meant => .string role .none (read ++ [meant])
  | .hex missing value =>
      (hexValue code).map fun digit =>
        if missing = 1 then
          .string role .none (read ++ [Fin.ofNat 65536 (16 * value + digit)])
        else
          .string role (.hex (missing - 1) (16 * value + digit)) read

/-- One code unit. -/
def step (state : ParseState) (code : CodeUnit) : Option ParseState :=
  match state.mode with
  | .value =>
      if isJsonSpace code then some state else startValue state.frames code
  | .firstItem =>
      if isJsonSpace code then some state
      else if code = unit ']' then some ⟨.done (.array []), state.frames.tail⟩
      else startValue state.frames code
  | .firstKey =>
      if isJsonSpace code then some state
      else if code = unit '}' then some ⟨.done (.object []), state.frames⟩
      else if code = unit '"' then some ⟨.string (.key []) .none [], state.frames⟩
      else none
  | .key members =>
      if isJsonSpace code then some state
      else if code = unit '"' then some ⟨.string (.key members) .none [], state.frames⟩
      else none
  | .colon members key =>
      if isJsonSpace code then some state
      else if code = unit ':' then some ⟨.value, .member members key :: state.frames⟩
      else none
  | .done value => afterValue value state.frames code
  | .string role escape read =>
      (stringStep role escape read code).map fun mode => ⟨mode, state.frames⟩
  | .word value missing =>
      match missing with
      | [] => none
      | [last] => if code = last then some ⟨.done value, state.frames⟩ else none
      | next :: rest => if code = next then some ⟨.word value rest, state.frames⟩ else none
  | .numeral read =>
      if isNumeralUnit code then
        some ⟨.numeral (read ++ [code]), state.frames⟩
      else
        (readNumeral read).bind fun decimal =>
          afterValue (.number decimal.toNumber) state.frames code

/-- The code units of a text, one after another. -/
def runFrom (state : ParseState) (text : JsString) : Option ParseState :=
  text.foldlM step state

/-- The state before the first code unit. -/
def startState : ParseState :=
  ⟨.value, []⟩

/-- The value of a state in which a text may end. -/
def ParseState.result (state : ParseState) : Option JsValue :=
  match state.mode, state.frames with
  | .done value, [] => some value
  | _, _ => none

/-- `JSON.parse`.  The white space at the end completes a numeral. -/
def parseJson (text : JsString) : Option JsValue :=
  (runFrom startState (text ++ [unit ' '])).bind ParseState.result

@[simp]
theorem runFrom_nil (state : ParseState) : runFrom state [] = some state := rfl

theorem runFrom_cons (state : ParseState) (code : CodeUnit) (text : JsString) :
    runFrom state (code :: text) = (step state code).bind fun next => runFrom next text := rfl

theorem runFrom_append (state : ParseState) (first second : JsString) :
    runFrom state (first ++ second) =
      (runFrom state first).bind fun next => runFrom next second := by
  rw [runFrom, List.foldlM_append]
  rfl

/-- A code unit that leads to a state is read in that state. -/
theorem runFrom_step {state next : ParseState} {code : CodeUnit} (text : JsString)
    (stepped : step state code = some next) :
    runFrom state (code :: text) = runFrom next text := by
  rw [runFrom_cons, stepped]
  rfl

theorem runFrom_stuck {state : ParseState} {code : CodeUnit} (text : JsString)
    (stuck : step state code = none) :
    runFrom state (code :: text) = none := by
  rw [runFrom_cons, stuck]
  rfl

end SpecAsCode.Js
