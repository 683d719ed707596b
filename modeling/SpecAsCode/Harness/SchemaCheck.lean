import SpecAsCode.Js.Stringify

/-!
# Checking an answer against a JSON schema

`checkJsonSchema` covers the keywords that the request schemas use.  The names that
`Object.prototype` defines count as present in every object, and are read from there.
-/

namespace SpecAsCode.Harness

open SpecAsCode.Js

structure SchemaIssue where
  path : JsString
  message : JsString
  deriving DecidableEq

def typeOf : JsValue → JsString
  | .undefined => js "undefined"
  | .null => js "null"
  | .bool _ => js "boolean"
  | .number _ => js "number"
  | .string _ => js "string"
  | .array _ => js "array"
  | .object _ => js "object"

/-- `JSON.stringify(a) === JSON.stringify(b)`, where `undefined` has no text. -/
def jsonEqual (first second : JsValue) : Bool :=
  first.isUndefined == second.isUndefined && first.stringify == second.stringify

/-- `Number.isInteger`. -/
def isInteger : JsNumber → Bool
  | .finite value =>
      match value.name with
      | .zero => true
      | .nonzero _ significand point => (significand.digits.length : Int) ≤ point
  | _ => false

/-- `length < number`. -/
def shorterThan (length : Nat) : JsNumber → Bool
  | .finite value =>
      match value.name with
      | .zero => false
      | .nonzero negative significand point =>
          let exponent := point - significand.digits.length
          !negative && length * 10 ^ (-exponent).toNat <
            natOfDigits significand.digits * 10 ^ exponent.toNat
  | .nan => false
  | .infinity negative => !negative

/-- The names that an object without own properties has. -/
def PROTOTYPE_KEYS : List JsString :=
  [js "constructor", js "__defineGetter__", js "__defineSetter__", js "hasOwnProperty",
    js "__lookupGetter__", js "__lookupSetter__", js "isPrototypeOf", js "propertyIsEnumerable",
    js "toString", js "valueOf", js "__proto__", js "toLocaleString"]

/-- `key in object`. -/
def inObject (key : JsString) (members : Members) : Bool :=
  members.any (fun member => member.1 == key) || PROTOTYPE_KEYS.contains key

/-- What is checked: a value of JSON, or what a name of `Object.prototype` is read as, which is
a method or that object itself. -/
inductive Subject where
  | json (value : JsValue)
  | method
  | prototype

/-- The value without its methods, which have no text. -/
def Subject.value : Subject → JsValue
  | .json value => value
  | .method => .undefined
  | .prototype => .object []

def Subject.type : Subject → JsString
  | .json value => typeOf value
  | .method => js "function"
  | .prototype => js "object"

/-- What `Object.prototype` has under a name. -/
def inherited (key : JsString) : Subject :=
  if key = js "__proto__" then .prototype
  else if PROTOTYPE_KEYS.contains key then .method
  else .json .undefined

/-- `object[key]`. -/
def Subject.read (key : JsString) : Subject → Subject
  | .json (.object members) =>
      if members.any (fun member => member.1 == key) then .json (lookup key members)
      else inherited key
  | .prototype => if key = js "__proto__" then .json .null else inherited key
  | _ => .json .undefined

def asItems : JsValue → Option (List JsValue)
  | .array items => some items
  | _ => none

def asMembers : JsValue → Option Members
  | .object members => some members
  | _ => none

/-- Values with a separator between their texts. -/
def joined (separator : JsString) (values : List JsValue) : JsString :=
  ((values.map JsValue.stringify).intersperse separator).flatten

/-- The types that a schema allows, when it names any. -/
def allowedTypes (schema : Members) : Option (List JsString) :=
  match lookup (js "type") schema with
  | .string name => some [name]
  | .array names => some (names.map JsValue.display)
  | _ => none

/-- The issues with the value as a whole: `const` and `enum`. -/
def valueIssues (schema : Members) (value : JsValue) (path : JsString) : List SchemaIssue :=
  let constant := lookup (js "const") schema
  (if !constant.isUndefined && !jsonEqual value constant then
    [⟨path, js "expected const " ++ constant.stringify⟩]
  else
    []) ++
  match asItems (lookup (js "enum") schema) with
  | some choices =>
      if choices.any (jsonEqual value) then []
      else [⟨path, js "expected one of " ++ joined (js " | ") choices⟩]
  | none => []

/-- `actual === "number" && Number.isInteger(value)`. -/
def isIntegerValue : JsValue → Bool
  | .number number => isInteger number
  | _ => false

/-- The issue with the type of the value. -/
def typeIssue (schema : Members) (subject : Subject) (path : JsString) : Option SchemaIssue :=
  (allowedTypes schema).bind fun allowed =>
    if allowed.contains subject.type ||
        (allowed.contains (js "integer") && isIntegerValue subject.value) then
      none
    else
      some ⟨path, js "expected type " ++ (allowed.intersperse (js "|")).flatten ++ js ", got " ++
        subject.type⟩

/-- The issues with the names of an object: `required` and `additionalProperties`. -/
def nameIssues (schema object : Members) (path : JsString) : List SchemaIssue :=
  let properties := (asMembers (lookup (js "properties") schema)).getD []
  let required := ((asItems (lookup (js "required") schema)).getD []).map JsValue.display
  let missing := required.filter fun key => !inObject key object
  let unexpected :=
    match lookup (js "additionalProperties") schema with
    | .bool false => (object.map Prod.fst).filter fun key => !inObject key properties
    | _ => []
  (missing.map fun key =>
    ⟨path, js "missing required property \"" ++ key ++ js "\""⟩) ++
  unexpected.map fun key =>
    ⟨path, js "unexpected property \"" ++ key ++ js "\" (additionalProperties: false)"⟩

/-- The issue with the length of a text. -/
def lengthIssues (schema : Members) (value : JsValue) (path : JsString) : List SchemaIssue :=
  match value, lookup (js "minLength") schema with
  | .string text, .number least =>
      if shorterThan text.length least then
        [⟨path, js "shorter than minLength " ++ least.text⟩]
      else
        []
  | _, _ => []

section Keywords

variable (check : JsValue → Subject → JsString → List SchemaIssue) (schema : Members)
  (subject : Subject) (path : JsString)

/-- The issues with the names and the properties of an object. -/
def memberIssues : List SchemaIssue :=
  match asMembers subject.value with
  | none => []
  | some object =>
      nameIssues schema object path ++
        ((asMembers (lookup (js "properties") schema)).getD []).flatMap fun member =>
          if inObject member.1 object then
            check member.2 (subject.read member.1) (path ++ js "." ++ member.1)
          else
            []

/-- The issues with the items of an array. -/
def itemIssues : List SchemaIssue :=
  let each := lookup (js "items") schema
  match asItems subject.value with
  | none => []
  | some items =>
      if each.isUndefined then
        []
      else
        items.zipIdx.flatMap fun item =>
          check each (.json item.1) (path ++ js "[" ++ natText item.2 ++ js "]")

/-- The issue with `oneOf`: no branch passes. -/
def branchIssues : List SchemaIssue :=
  match asItems (lookup (js "oneOf") schema) with
  | none => []
  | some branches =>
      if branches.any fun branch => (check branch subject path).isEmpty then
        []
      else
        [⟨path, js "matched none of the oneOf branches"⟩]

/-- The body of `checkJsonSchema`. -/
def schemaIssues : List SchemaIssue :=
  match typeIssue schema subject path with
  | some issue => valueIssues schema subject.value path ++ [issue]
  | none =>
      valueIssues schema subject.value path ++ memberIssues check schema subject path ++
        itemIssues check schema subject path ++ lengthIssues schema subject.value path ++
        branchIssues check schema subject path

end Keywords

/-- `checkJsonSchema` on schemas that are nested no deeper than a bound. -/
def checkWithin : Nat → JsValue → Subject → JsString → List SchemaIssue
  | 0, _, _, _ => []
  | depth + 1, schema, subject, path =>
      match asMembers schema with
      | none => []
      | some schema => schemaIssues (checkWithin depth) schema subject path

mutual

/-- How deep a value is nested. -/
def nesting : JsValue → Nat
  | .array items => itemsNesting items + 1
  | .object members => membersNesting members + 1
  | _ => 1

def itemsNesting : List JsValue → Nat
  | [] => 0
  | item :: rest => max (nesting item) (itemsNesting rest)

def membersNesting : Members → Nat
  | [] => 0
  | (_, value) :: rest => max (nesting value) (membersNesting rest)

end

def checkJsonSchema (schema value : JsValue) : List SchemaIssue :=
  checkWithin (nesting schema) schema (.json value) (js "<root>")

example :
    checkJsonSchema
        (.object [(js "type", .string (js "object")), (js "required", .array [.string (js "a")]),
          (js "properties", .object [(js "a", .object [(js "type", .string (js "string"))])])])
        (.object [(js "a", .bool true)]) =
      [⟨js "<root>.a", js "expected type string, got boolean"⟩] := by
  decide

end SpecAsCode.Harness
