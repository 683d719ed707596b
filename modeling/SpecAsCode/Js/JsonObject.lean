import SpecAsCode.Js.Integer
import SpecAsCode.Js.RoundTrip

/-!
# Object literals

Objects as the code writes them: a list of fields with fixed keys, some of which are spread
in only under a condition.
-/

namespace SpecAsCode.Js

/-- A value that a JSON text denotes. -/
abbrev Json := { value : JsValue // value.isJson = true }

namespace Json

def null : Json :=
  ⟨.null, rfl⟩

def bool (value : Bool) : Json :=
  ⟨.bool value, rfl⟩

def text (value : JsString) : Json :=
  ⟨.string value, rfl⟩

/-- A number; `JSON.stringify` prints one that is not finite as `null`. -/
def number : JsNumber → Json
  | .finite value => ⟨.number (.finite value), rfl⟩
  | _ => null

def texts (values : List JsString) : Json :=
  ⟨.array (values.map .string), by
    rw [JsValue.isJson, itemsAreJson_iff]
    intro item member
    obtain ⟨value, -, rfl⟩ := List.mem_map.mp member
    rfl⟩

def array (values : List Json) : Json :=
  ⟨.array (values.map Subtype.val), by
    rw [JsValue.isJson, itemsAreJson_iff]
    intro item member
    obtain ⟨value, -, rfl⟩ := List.mem_map.mp member
    exact value.2⟩

end Json

/-- A field of an object literal; `none` is one that is not spread in. -/
abbrev Field := JsString × Option Json

/-- The members of an object literal. -/
def fieldMembers (fields : List Field) : Members :=
  fields.filterMap fun field => field.2.map fun value => (field.1, value.1)

/-- The keys of a literal in the order in which they are enumerated. -/
abbrev Ordered (fields : List Field) : Prop :=
  (fields.map Prod.fst).Pairwise KeysInOrder

theorem keys_fieldMembers (fields : List Field) :
    (fieldMembers fields).map Prod.fst = (fields.filter fun field => field.2.isSome).map Prod.fst := by
  induction fields with
  | nil => rfl
  | cons field fields inductionHypothesis =>
      obtain ⟨key, value⟩ := field
      cases value with
      | none => exact inductionHypothesis
      | some value =>
          show key :: (fieldMembers fields).map Prod.fst = _
          rw [inductionHypothesis]
          rfl

/-- An object literal with keys in order is a JSON value. -/
theorem isJson_fieldMembers {fields : List Field} (ordered : Ordered fields) :
    (JsValue.object (fieldMembers fields)).isJson = true := by
  rw [JsValue.isJson, Bool.and_eq_true, decide_eq_true_eq, membersAreJson_iff]
  refine ⟨enumerated_of_keys (keys_fieldMembers fields)
    (ordered.sublist (List.filter_sublist.map _)), fun member found => ?_⟩
  obtain ⟨field, -, value⟩ := List.mem_filterMap.mp found
  obtain ⟨json, -, rfl⟩ := Option.map_eq_some_iff.mp value
  exact json.2

@[simp]
theorem fieldMembers_nil : fieldMembers [] = [] := rfl

/-- A field with another key is passed over. -/
theorem lookup_fieldMembers_ne {key name : JsString} (different : name ≠ key) (value : Option Json)
    (fields : List Field) :
    lookup key (fieldMembers ((name, value) :: fields)) = lookup key (fieldMembers fields) := by
  cases value with
  | none => rfl
  | some value => exact lookup_cons_ne value.1 _ different

/-- A field that is there is found. -/
theorem lookup_fieldMembers_self (key : JsString) (value : Json) (fields : List Field) :
    lookup key (fieldMembers ((key, some value) :: fields)) = value.1 :=
  lookup_cons_self key value.1 _

/-- A field that is not spread in is not there. -/
theorem lookup_fieldMembers_none (key name : JsString) (fields : List Field) :
    lookup key (fieldMembers ((name, none) :: fields)) = lookup key (fieldMembers fields) := rfl

/-- An object literal. -/
def Json.object (fields : List Field) (ordered : Ordered fields) : Json :=
  ⟨.object (fieldMembers fields), isJson_fieldMembers ordered⟩

/-- An object with some more properties is a JSON value if their values are. -/
theorem isJson_setProperties (entries : List (JsString × Json)) {members : Members}
    (json : (JsValue.object members).isJson = true) :
    (JsValue.object (entries.foldl (fun out entry => setProperty entry.1 entry.2.1 out)
      members)).isJson = true := by
  induction entries generalizing members with
  | nil => exact json
  | cons entry entries inductionHypothesis =>
      refine inductionHypothesis ?_
      rw [JsValue.isJson, Bool.and_eq_true, decide_eq_true_eq, membersAreJson_iff] at json ⊢
      refine ⟨json.1.setProperty _ _, fun member found => ?_⟩
      rcases mem_setProperty found with rfl | old
      · exact entry.2.2
      · exact json.2 member old

/-- `Object.fromEntries`. -/
def Json.fromEntries (entries : List (JsString × Json)) : Json :=
  ⟨.object (entries.foldl (fun out entry => setProperty entry.1 entry.2.1 out) []),
    isJson_setProperties entries (Json.object [] List.Pairwise.nil).2⟩

end SpecAsCode.Js
