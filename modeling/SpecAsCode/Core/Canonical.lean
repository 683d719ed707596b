import SpecAsCode.Js.RoundTrip
import Mathlib.Data.List.GetD

/-!
# Canonical JSON and digests

`canonicalize` copies a value with the keys of its objects sorted and its undefined
properties left out; `canonicalJson` prints the copy and `digestOf` hashes the text.
The copy of an object starts as `{}` and is filled by assignments, and the assignment
to `__proto__` sets the prototype of the copy instead of creating a property.
-/

namespace SpecAsCode.Core

open SpecAsCode.Js

/-- A refused value: where it is and why it is refused. -/
structure CanonicalError where
  path : List JsString
  reason : JsString

/-- The texts of a path with dots between them. -/
def joinDots : List JsString → JsString
  | [] => []
  | [part] => part
  | part :: next :: rest => part ++ js "." ++ joinDots (next :: rest)

def CanonicalError.message (error : CanonicalError) : JsString :=
  js "cannot canonicalize value at $." ++ joinDots error.path ++ js ": " ++ error.reason

/-- The key whose assignment does not create a property. -/
def protoKey : JsString :=
  js "__proto__"

/-- `out[key] = value` on a copy that started as `{}`. -/
def assignProperty (out : Members) (key : JsString) (value : JsValue) : Members :=
  if key = protoKey then out else setProperty key value out

/-- The assignments that fill the copy of an object, in order, until one fails. -/
def assignAll (entries : List (JsString × Except CanonicalError JsValue)) :
    Except CanonicalError Members :=
  entries.foldlM (fun out entry => entry.2.map (assignProperty out entry.1)) []

/-- `keys.sort()`, on the entries of distinct keys. -/
def sortEntries {α : Type} (entries : List (JsString × α)) : List (JsString × α) :=
  entries.insertionSort fun first second => first.1 ≤ second.1

mutual

def transformInner (path : List JsString) : JsValue → Except CanonicalError JsValue
  | .null => .ok .null
  | .string value => .ok (.string value)
  | .bool value => .ok (.bool value)
  | .number value =>
      if value.isFinite then
        .ok (.number value)
      else
        .error ⟨path, js "NaN and Infinity are not canonicalizable"⟩
  | .undefined =>
      .error ⟨path, js "undefined is only permitted as an omitted object property"⟩
  | .array items => (transformItems path 0 items).map .array
  | .object members => (assignAll (sortEntries (transformMembers path members))).map .object

/-- The items of an array from an index on. -/
def transformItems (path : List JsString) (index : Nat) :
    List JsValue → Except CanonicalError (List JsValue)
  | [] => .ok []
  | item :: rest =>
      if item.isUndefined then
        .error ⟨path, js "array item " ++ natText index ++ js " is undefined"⟩
      else
        (transformInner (path ++ [natText index]) item).bind fun copy =>
          (transformItems path (index + 1) rest).map (copy :: ·)

/-- The defined properties of an object, each with what its copy comes to. -/
def transformMembers (path : List JsString) :
    Members → List (JsString × Except CanonicalError JsValue)
  | [] => []
  | (key, value) :: rest =>
      if value.isUndefined then
        transformMembers path rest
      else
        (key, transformInner (path ++ [key]) value) :: transformMembers path rest

end

def canonicalize (value : JsValue) : Except CanonicalError JsValue :=
  transformInner [] value

def canonicalJson (value : JsValue) : Except CanonicalError JsString :=
  (canonicalize value).map JsValue.stringify

/-- The digest of a value, over a function `sha256Hex` of texts. -/
def digestOf (sha256Hex : JsString → JsString) (value : JsValue) :
    Except CanonicalError JsString :=
  (canonicalJson value).map fun text => js "sha256:" ++ sha256Hex text

example : (canonicalJson (.object [(js "b", .undefined), (js "10", .null),
    (js "a", .array [.bool true])])).toOption = some (js "\x7b\"10\":null,\"a\":[true]\x7d") := by
  decide

/-! ## Equality of logical values -/

/-- Equality up to the order of keys and the presence of undefined properties. -/
inductive LogicallyEqual : JsValue → JsValue → Prop
  | undefined : LogicallyEqual .undefined .undefined
  | null : LogicallyEqual .null .null
  | bool (value : Bool) : LogicallyEqual (.bool value) (.bool value)
  | number (value : JsNumber) : LogicallyEqual (.number value) (.number value)
  | string (value : JsString) : LogicallyEqual (.string value) (.string value)
  | array {first second : List JsValue} (length : first.length = second.length)
      (items : ∀ index, LogicallyEqual (first.getD index .undefined)
        (second.getD index .undefined)) :
      LogicallyEqual (.array first) (.array second)
  | object {first second : Members}
      (properties : ∀ key, LogicallyEqual (lookup key first) (lookup key second)) :
      LogicallyEqual (.object first) (.object second)

theorem LogicallyEqual.refl (value : JsValue) : LogicallyEqual value value := by
  induction value using JsValue.induction with
  | undefined => exact .undefined
  | null => exact .null
  | bool value => exact .bool value
  | number value => exact .number value
  | string value => exact .string value
  | array items inductionHypothesis =>
      refine .array rfl fun index => ?_
      by_cases inside : index < items.length
      · rw [List.getD_eq_getElem _ _ inside]
        exact inductionHypothesis _ (List.getElem_mem inside)
      · rw [List.getD_eq_default _ _ (by omega)]
        exact .undefined
  | object members inductionHypothesis =>
      refine .object fun key => ?_
      rcases lookup_mem_or_undefined key members with member | absent
      · exact inductionHypothesis (key, lookup key members) member
      · rw [absent]
        exact .undefined

theorem LogicallyEqual.symm {first second : JsValue} (equal : LogicallyEqual first second) :
    LogicallyEqual second first := by
  induction equal with
  | undefined => exact .undefined
  | null => exact .null
  | bool value => exact .bool value
  | number value => exact .number value
  | string value => exact .string value
  | array length _ inductionHypothesis => exact .array length.symm inductionHypothesis
  | object _ inductionHypothesis => exact .object inductionHypothesis

theorem LogicallyEqual.trans {first second third : JsValue}
    (equal : LogicallyEqual first second) (next : LogicallyEqual second third) :
    LogicallyEqual first third := by
  induction equal generalizing third with
  | undefined => exact next
  | null => exact next
  | bool value => exact next
  | number value => exact next
  | string value => exact next
  | array length _ inductionHypothesis =>
      cases next with
      | array otherLength items =>
          exact .array (length.trans otherLength) fun index =>
            inductionHypothesis index (items index)
  | object _ inductionHypothesis =>
      cases next with
      | object properties =>
          exact .object fun key => inductionHypothesis key (properties key)

/-! ## Values without properties named `__proto__` -/

mutual

/-- The value without the own properties named `__proto__`, at any depth. -/
def withoutProto : JsValue → JsValue
  | .undefined => .undefined
  | .null => .null
  | .bool value => .bool value
  | .number value => .number value
  | .string value => .string value
  | .array items => .array (itemsWithoutProto items)
  | .object members => .object (membersWithoutProto members)

def itemsWithoutProto : List JsValue → List JsValue
  | [] => []
  | item :: rest => withoutProto item :: itemsWithoutProto rest

def membersWithoutProto : Members → Members
  | [] => []
  | (key, value) :: rest =>
      if key = protoKey then
        membersWithoutProto rest
      else
        (key, withoutProto value) :: membersWithoutProto rest

end

/-- Two values that differ, but only in own properties named `__proto__`. -/
def DifferOnlyInProto (first second : JsValue) : Prop :=
  LogicallyEqual (withoutProto first) (withoutProto second) ∧ ¬ LogicallyEqual first second

theorem itemsWithoutProto_eq_map (items : List JsValue) :
    itemsWithoutProto items = items.map withoutProto := by
  induction items with
  | nil => rfl
  | cons item rest inductionHypothesis => simp [itemsWithoutProto, inductionHypothesis]

theorem lookup_membersWithoutProto (key : JsString) (members : Members) :
    lookup key (membersWithoutProto members) =
      if key = protoKey then .undefined else withoutProto (lookup key members) := by
  induction members with
  | nil => simp [membersWithoutProto, withoutProto]
  | cons member rest inductionHypothesis =>
      obtain ⟨name, value⟩ := member
      rw [membersWithoutProto]
      by_cases proto : name = protoKey
      · rw [if_pos proto, inductionHypothesis]
        by_cases same : key = protoKey
        · simp [same]
        · rw [if_neg same, if_neg same, lookup_cons_ne]
          rw [proto]
          exact fun equal => same equal.symm
      · rw [if_neg proto]
        by_cases found : name = key
        · subst found
          simp [lookup_cons_self, proto]
        · rw [lookup_cons_ne _ _ found, lookup_cons_ne _ _ found, inductionHypothesis]

theorem isUndefined_withoutProto (value : JsValue) :
    (withoutProto value).isUndefined = value.isUndefined := by
  cases value <;> rfl

end SpecAsCode.Core
