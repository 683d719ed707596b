import SpecAsCode.Js.Number

/-!
# JSON-like values

The values `JSON.parse` builds and `JSON.stringify` prints, with `undefined`
beside them.  An object is the list of its own enumerable properties in the order
`Object.keys` gives them.
-/

namespace SpecAsCode.Js

/-- A JSON-like JavaScript value. -/
inductive JsValue where
  | undefined
  | null
  | bool (value : Bool)
  | number (value : JsNumber)
  | string (value : JsString)
  | array (items : List JsValue)
  | object (members : List (JsString × JsValue))

/-- The own properties of an object, in enumeration order. -/
abbrev Members := List (JsString × JsValue)

/-- The value of an own property, `undefined` when there is none. -/
def lookup (key : JsString) : Members → JsValue
  | [] => .undefined
  | (name, value) :: rest => if name = key then value else lookup key rest

/-- `value.key` for a key that no prototype defines. -/
def JsValue.property (value : JsValue) (key : JsString) : JsValue :=
  match value with
  | .object members => lookup key members
  | _ => .undefined

/-- `value === undefined || value === null`. -/
def JsValue.isNullish : JsValue → Bool
  | .undefined => true
  | .null => true
  | _ => false

/-- `value ?? other`. -/
def JsValue.orElse (value other : JsValue) : JsValue :=
  if value.isNullish then other else value

/-- `value === undefined`. -/
def JsValue.isUndefined : JsValue → Bool
  | .undefined => true
  | _ => false

/-- `value === true`. -/
def JsValue.isTrue : JsValue → Bool
  | .bool value => value
  | _ => false

/-- The text of a value that is a string. -/
def JsValue.asString : JsValue → Option JsString
  | .string value => some value
  | _ => none

mutual

/-- `String(value)`, as template literals convert their parts. -/
def JsValue.display : JsValue → JsString
  | .undefined => js "undefined"
  | .null => js "null"
  | .bool true => js "true"
  | .bool false => js "false"
  | .number value => value.text
  | .string value => value
  | .array items => (displayItems items).flatten
  | .object _ => js "[object Object]"

/-- The parts `Array.prototype.join` puts together: the items and the commas
between them, `undefined` and `null` as empty texts. -/
def displayItems : List JsValue → List JsString
  | [] => []
  | [item] => [if item.isNullish then [] else item.display]
  | item :: next :: rest =>
      (if item.isNullish then [] else item.display) :: js "," :: displayItems (next :: rest)

end

example : (JsValue.array [.null, .bool true, .string (js "a")]).display = js ",true,a" := by
  decide

mutual

/-- Whether `String(value)` returns.  The methods of a parsed object are not functions, so
that an own `toString` leaves nothing to convert the object with. -/
def JsValue.converts : JsValue → Bool
  | .array items => itemsConvert items
  | .object members => members.all fun member => member.1 != js "toString"
  | _ => true

/-- Whether every item of an array is converted. -/
def itemsConvert : List JsValue → Bool
  | [] => true
  | item :: rest => item.converts && itemsConvert rest

end

/-- `String(value)`; `none` when it throws. -/
def JsValue.toText (value : JsValue) : Option JsString :=
  if value.converts then some value.display else none

@[simp]
theorem lookup_nil (key : JsString) : lookup key [] = .undefined := rfl

theorem lookup_cons_self (key : JsString) (value : JsValue) (rest : Members) :
    lookup key ((key, value) :: rest) = value := by
  simp [lookup]

theorem lookup_cons_ne {key name : JsString} (value : JsValue) (rest : Members)
    (different : name ≠ key) :
    lookup key ((name, value) :: rest) = lookup key rest := by
  simp [lookup, different]

theorem lookup_eq_undefined_of_not_mem {key : JsString} {members : Members}
    (absent : key ∉ members.map Prod.fst) :
    lookup key members = .undefined := by
  induction members with
  | nil => rfl
  | cons member rest inductionHypothesis =>
      obtain ⟨name, value⟩ := member
      simp only [List.map_cons, List.mem_cons, not_or] at absent
      rw [lookup_cons_ne value rest (Ne.symm absent.1)]
      exact inductionHypothesis absent.2

theorem lookup_eq_of_mem {key : JsString} {value : JsValue} {members : Members}
    (distinct : (members.map Prod.fst).Nodup) (member : (key, value) ∈ members) :
    lookup key members = value := by
  induction members with
  | nil => cases member
  | cons head rest inductionHypothesis =>
      obtain ⟨name, first⟩ := head
      simp only [List.map_cons, List.nodup_cons] at distinct
      rcases List.mem_cons.mp member with headEqual | later
      · cases headEqual
        exact lookup_cons_self key value rest
      · have different : name ≠ key := by
          rintro rfl
          exact distinct.1 (List.mem_map.mpr ⟨_, later, rfl⟩)
        rw [lookup_cons_ne first rest different]
        exact inductionHypothesis distinct.2 later

theorem lookup_mem_or_undefined (key : JsString) (members : Members) :
    (key, lookup key members) ∈ members ∨ lookup key members = .undefined := by
  induction members with
  | nil => exact Or.inr rfl
  | cons head rest inductionHypothesis =>
      obtain ⟨name, value⟩ := head
      by_cases same : name = key
      · subst same
        rw [lookup_cons_self]
        exact Or.inl List.mem_cons_self
      · rw [lookup_cons_ne value rest same]
        exact inductionHypothesis.imp_left (List.mem_cons_of_mem _)

end SpecAsCode.Js
