import SpecAsCode.Core.CanonicalIdentity
import SpecAsCode.Js.Integer

/-!
# Fields of strict objects

The schemas of the fields that events and evidence records are made of.  A field that
is absent reads as `undefined`.
-/

namespace SpecAsCode.Schema

open SpecAsCode.Js
open SpecAsCode.Core

/-- `z.string().min(1)`. -/
def nonemptyString (value : JsValue) : Option JsString :=
  match value with
  | .string [] => none
  | .string text => some text
  | _ => none

/-- `z.string().optional()`. -/
def optionalString (value : JsValue) : Option (Option JsString) :=
  match value with
  | .undefined => some none
  | .string text => some (some text)
  | _ => none

/-- `z.record(z.string(), z.unknown())`.  The result starts as `{}` and is filled by
assignments. -/
def stringRecord (value : JsValue) : Option Members :=
  match value with
  | .object members => some (members.filter fun member => member.1 ≠ protoKey)
  | _ => none

/-- `z.number().int().positive()`. -/
def positiveInteger (value : JsValue) : Option JsNumber :=
  match value with
  | .number number => if number.isPositiveInteger then some number else none
  | _ => none

/-- The keys of a strict object. -/
def onlyKeys (keys : List JsString) (members : Members) : Bool :=
  members.all fun member => keys.contains member.1

theorem nonemptyString_string {text : JsString} (nonempty : text ≠ []) :
    nonemptyString (.string text) = some text := by
  cases text with
  | nil => exact absurd rfl nonempty
  | cons => rfl

/-- `z.array(z.string())`. -/
def stringArray (value : JsValue) : Option (List JsString) :=
  match value with
  | .array items => items.mapM JsValue.asString
  | _ => none

theorem stringArray_map (texts : List JsString) :
    stringArray (.array (texts.map .string)) = some texts := by
  rw [stringArray]
  induction texts with
  | nil => rfl
  | cons text rest inductionHypothesis =>
      simp [List.mapM_cons, JsValue.asString, inductionHypothesis]

/-! ## Undefined properties -/

/-- The value of an optional property. -/
def optionalField (value : Option JsString) : JsValue :=
  match value with
  | none => .undefined
  | some text => .string text

@[simp]
theorem optionalString_optionalField (value : Option JsString) :
    optionalString (optionalField value) = some value := by
  cases value <;> rfl

/-- The properties that are printed and hashed. -/
def definedMembers (members : Members) : Members :=
  members.filter fun member => !member.2.isUndefined

theorem stringifyMembers_defined (members : Members) :
    stringifyMembers (definedMembers members) = stringifyMembers members := by
  induction members with
  | nil => rfl
  | cons member rest inductionHypothesis =>
      obtain ⟨key, value⟩ := member
      cases undefined : value.isUndefined with
      | true =>
          rw [definedMembers, List.filter_cons_of_neg (by simp [undefined]), ← definedMembers,
            inductionHypothesis, stringifyMembers, if_pos undefined]
      | false =>
          rw [definedMembers, List.filter_cons_of_pos (by simp [undefined]), ← definedMembers,
            stringifyMembers, stringifyMembers, undefined, inductionHypothesis]

theorem stringify_definedMembers (members : Members) :
    (JsValue.object (definedMembers members)).stringify = (JsValue.object members).stringify := by
  rw [JsValue.stringify, JsValue.stringify, stringifyMembers_defined]

theorem transformMembers_defined (path : List JsString) (members : Members) :
    transformMembers path (definedMembers members) = transformMembers path members := by
  induction members with
  | nil => rfl
  | cons member rest inductionHypothesis =>
      obtain ⟨key, value⟩ := member
      cases undefined : value.isUndefined with
      | true =>
          rw [definedMembers, List.filter_cons_of_neg (by simp [undefined]), ← definedMembers,
            inductionHypothesis, transformMembers, if_pos undefined]
      | false =>
          rw [definedMembers, List.filter_cons_of_pos (by simp [undefined]), ← definedMembers,
            transformMembers, transformMembers, undefined, inductionHypothesis]

/-- Undefined properties do not show in a digest. -/
theorem digestOf_definedMembers (sha256Hex : JsString → JsString) (members : Members) :
    digestOf sha256Hex (.object (definedMembers members)) = digestOf sha256Hex (.object members) := by
  rw [digestOf, digestOf, canonicalJson, canonicalJson, canonicalize, canonicalize, transformInner,
    transformInner, transformMembers_defined]

theorem lookup_definedMembers {members : Members} (distinct : (members.map Prod.fst).Nodup)
    (key : JsString) : lookup key (definedMembers members) = lookup key members := by
  induction members with
  | nil => rfl
  | cons member rest inductionHypothesis =>
      obtain ⟨name, value⟩ := member
      rw [List.map_cons, List.nodup_cons] at distinct
      have later := inductionHypothesis distinct.2
      cases undefined : value.isUndefined with
      | true =>
          rw [definedMembers, List.filter_cons_of_neg (by simp [undefined]), ← definedMembers, later]
          by_cases same : name = key
          · subst same
            rw [lookup_cons_self, lookup_eq_undefined_of_not_mem distinct.1]
            cases value <;> first | rfl | cases undefined
          · rw [lookup_cons_ne value rest same]
      | false =>
          rw [definedMembers, List.filter_cons_of_pos (by simp [undefined]), ← definedMembers]
          by_cases same : name = key
          · subst same
            rw [lookup_cons_self, lookup_cons_self]
          · rw [lookup_cons_ne _ _ same, lookup_cons_ne _ _ same, later]

theorem onlyKeys_definedMembers {keys : List JsString} {members : Members}
    (only : onlyKeys keys members = true) : onlyKeys keys (definedMembers members) = true := by
  rw [onlyKeys, List.all_eq_true] at only ⊢
  exact fun member found => only member (List.mem_filter.mp found).1

end SpecAsCode.Schema
