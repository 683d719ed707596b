import SpecAsCode.Core.YamlSpecs
import SpecAsCode.Core.SpecDigest
import SpecAsCode.Core.ComposedSpec

/-!
# Hashing what a document holds

Everything in a specification can be hashed, except for what the schema lets through unread:
the values under `metadata`.  A compilation throws exactly when it comes to the hash with a
value there that canonical JSON refuses.
-/

namespace SpecAsCode.Compiler

open SpecAsCode.Js
open SpecAsCode.Core
open SpecAsCode.Lib
open SpecAsCode.Schema (FileAssert)
open SpecAsCode.Js.Path (normalize)

/-! ## Canonicalization of plain data -/

mutual

/-- `transformInner` on the data of a document.  The name of the class that an unsupported
object has is left out. -/
def transformRaw (path : List JsString) : RawValue → Except CanonicalError JsValue
  | .scalar .null => .ok .null
  | .scalar (.bool value) => .ok (.bool value)
  | .scalar (.string value) => .ok (.string value)
  | .scalar (.number value) =>
      if value.isFinite then
        .ok (.number value)
      else
        .error ⟨path, js "NaN and Infinity are not canonicalizable"⟩
  | .scalar (.symbol _) => .error ⟨path, js "symbol is not canonicalizable"⟩
  | .scalar (.builtIn true) =>
      .error ⟨path, js "Date objects are not canonicalizable; use ISO strings"⟩
  | .scalar (.builtIn false) => .error ⟨path, js "unsupported object type"⟩
  | .array items => (transformRawItems path 0 items).map .array
  | .object members => (assignAll (sortEntries (transformRawMembers path members))).map .object
  | .bare members => (assignAll (sortEntries (transformRawMembers path members))).map .object
  | .derived _ _ => .error ⟨path, js "unsupported object type"⟩

def transformRawItems (path : List JsString) (index : Nat) :
    List RawValue → Except CanonicalError (List JsValue)
  | [] => .ok []
  | item :: rest =>
      (transformRaw (path ++ [natText index]) item).bind fun copy =>
        (transformRawItems path (index + 1) rest).map (copy :: ·)

def transformRawMembers (path : List JsString) :
    RawMembers → List (JsString × Except CanonicalError JsValue)
  | [] => []
  | (key, value) :: rest =>
      (key, transformRaw (path ++ [key]) value) :: transformRawMembers path rest

end

mutual

/-- Canonical JSON has a text for the value. -/
def RawValue.hashable : RawValue → Bool
  | .scalar (.number value) => value.isFinite
  | .scalar (.symbol _) => false
  | .scalar (.builtIn _) => false
  | .scalar _ => true
  | .array items => itemsHashable items
  | .object members => membersHashable members
  | .bare members => membersHashable members
  | .derived _ _ => false

def itemsHashable : List RawValue → Bool
  | [] => true
  | item :: rest => item.hashable && itemsHashable rest

def membersHashable : RawMembers → Bool
  | [] => true
  | (_, value) :: rest => value.hashable && membersHashable rest

end

/-- Induction over plain data through the members of its arrays and objects. -/
@[elab_as_elim]
theorem RawValue.induction {motive : RawValue → Prop} (scalar : ∀ value, motive (.scalar value))
    (array : ∀ items : List RawValue, (∀ item ∈ items, motive item) → motive (.array items))
    (object : ∀ members : RawMembers, (∀ member ∈ members, motive member.2) →
      motive (.object members))
    (bare : ∀ members : RawMembers, (∀ member ∈ members, motive member.2) → motive (.bare members))
    (derived : ∀ prototype members, motive (.derived prototype members)) :
    ∀ value, motive value := by
  intro value
  refine @RawValue.rec motive (fun items => ∀ item ∈ items, motive item)
    (fun members => ∀ member ∈ members, motive member.2) (fun member => motive member.2)
    scalar array object bare (fun prototype members _ _ => derived prototype members)
    ?_ ?_ ?_ ?_ ?_ value
  · simp
  · intro head tail headHolds tailHolds item member
    rcases List.mem_cons.mp member with rfl | later
    · exact headHolds
    · exact tailHolds item later
  · simp
  · intro head tail headHolds tailHolds item member
    rcases List.mem_cons.mp member with rfl | later
    · exact headHolds
    · exact tailHolds item later
  · intro key value holds
    exact holds

theorem shadow_isUndefined (value : RawValue) : value.shadow.isUndefined = false := by
  cases value with
  | scalar value => cases value <;> rfl
  | _ => rfl

/-! ### The model of the values -/

/-- The entries as far as it matters whether they are copied, and to what. -/
def copiedEntries (entries : List (JsString × Except CanonicalError JsValue)) :
    List (JsString × Option JsValue) :=
  entries.map fun entry => (entry.1, entry.2.toOption)

theorem copiedEntries_sortEntries (entries : List (JsString × Except CanonicalError JsValue)) :
    copiedEntries (sortEntries entries) = sortEntries (copiedEntries entries) :=
  List.map_insertionSort _ _ _ _ fun _ _ _ _ => Iff.rfl

/-- One assignment of `assignAll`. -/
def assignEntry (out : Members) (entry : JsString × Except CanonicalError JsValue) :
    Except CanonicalError Members :=
  entry.2.map (assignProperty out entry.1)

theorem toOption_assignAll {first second : List (JsString × Except CanonicalError JsValue)}
    (same : copiedEntries first = copiedEntries second) :
    (assignAll first).toOption = (assignAll second).toOption := by
  suffices general : ∀ out : Members,
      (first.foldlM assignEntry out).toOption = (second.foldlM assignEntry out).toOption from
    general []
  induction first generalizing second with
  | nil =>
      cases second with
      | nil => exact fun _ => rfl
      | cons => cases same
  | cons entry rest inductionHypothesis =>
      cases second with
      | nil => cases same
      | cons other others =>
          intro out
          obtain ⟨key, result⟩ := entry
          obtain ⟨otherKey, otherResult⟩ := other
          have parts := List.cons.inj same
          obtain ⟨rfl, results⟩ := Prod.mk.inj parts.1
          rw [List.foldlM_cons, List.foldlM_cons]
          cases result with
          | error error =>
              cases otherResult with
              | error => rfl
              | ok => cases results
          | ok copy =>
              cases otherResult with
              | error => cases results
              | ok other =>
                  cases results
                  exact inductionHypothesis parts.2 _

theorem toOption_map {α β ε : Type} (result : Except ε α) (view : α → β) :
    (result.map view).toOption = result.toOption.map view := by
  cases result <;> rfl

/-- What canonical JSON refuses is NaN in the model. -/
theorem toOption_nan (path : List JsString) (error : CanonicalError) :
    (transformInner path (.number .nan)).toOption =
      (Except.error error : Except CanonicalError JsValue).toOption := by
  rw [transformInner, if_neg (by decide), Except.toOption, Except.toOption]

/-- The model of the values is copied as the values are. -/
theorem transformInner_shadow {value : RawValue} :
    ∀ path, (transformInner path value.shadow).toOption = (transformRaw path value).toOption := by
  have object : ∀ members : RawMembers,
      (∀ member ∈ members, ∀ path, (transformInner path member.2.shadow).toOption =
        (transformRaw path member.2).toOption) →
      ∀ path, (assignAll (sortEntries (transformMembers path (shadowMembers members)))).toOption =
        (assignAll (sortEntries (transformRawMembers path members))).toOption := by
    intro members each path
    refine toOption_assignAll ?_
    rw [copiedEntries_sortEntries, copiedEntries_sortEntries]
    refine congrArg sortEntries ?_
    induction members with
    | nil => rfl
    | cons member rest others =>
        obtain ⟨key, held⟩ := member
        rw [shadowMembers, transformMembers, shadow_isUndefined, if_neg (by simp),
          transformRawMembers, copiedEntries, copiedEntries, List.map_cons, List.map_cons]
        exact congrArg₂ List.cons (Prod.ext rfl (each _ List.mem_cons_self _))
          (others fun other later => each other (List.mem_cons_of_mem _ later))
  induction value using RawValue.induction with
  | scalar value =>
      intro path
      cases value with
      | symbol => exact toOption_nan path _
      | builtIn isDate =>
          cases isDate with
          | false => exact toOption_nan path _
          | true => exact toOption_nan path _
      | _ => rfl
  | array items inductionHypothesis =>
      intro path
      have each : ∀ index, (transformItems path index (shadowItems items)).toOption =
          (transformRawItems path index items).toOption := by
        induction items with
        | nil => exact fun _ => rfl
        | cons item rest others =>
            intro index
            have here := inductionHypothesis item List.mem_cons_self (path ++ [natText index])
            have later := others (fun other member =>
              inductionHypothesis other (List.mem_cons_of_mem _ member)) (index + 1)
            rw [shadowItems, transformItems, shadow_isUndefined, if_neg (by simp), transformRawItems]
            cases copied : transformInner (path ++ [natText index]) item.shadow with
            | error error =>
                cases raw : transformRaw (path ++ [natText index]) item with
                | error => rfl
                | ok copy => rw [copied, raw] at here; cases here
            | ok copy =>
                cases raw : transformRaw (path ++ [natText index]) item with
                | error => rw [copied, raw] at here; cases here
                | ok other =>
                    rw [copied, raw] at here
                    cases here
                    exact (toOption_map _ _).trans
                      ((congrArg (Option.map _) later).trans (toOption_map _ _).symm)
      rw [RawValue.shadow, transformInner, transformRaw, toOption_map, toOption_map, each]
  | object members inductionHypothesis =>
      intro path
      rw [RawValue.shadow, transformInner, transformRaw, toOption_map, toOption_map,
        object members inductionHypothesis]
  | bare members inductionHypothesis =>
      intro path
      rw [RawValue.shadow, transformInner, transformRaw, toOption_map, toOption_map,
        object members inductionHypothesis]
  | derived prototype members => exact fun path => toOption_nan path _

/-! ### Values that are copied -/

/-- The value is copied, wherever it stands. -/
def Copies (value : JsValue) : Prop :=
  ∀ path, ∃ copy, transformInner path value = .ok copy

theorem copies_of_copied {value : JsValue} {path : List JsString} {copy : JsValue}
    (wellFormed : value.isWellFormed = true) (copied : transformInner path value = .ok copy) :
    Copies value :=
  transformInner_of_equal wellFormed wellFormed (.refl value) copied

theorem shadowItems_eq_map (items : List RawValue) :
    shadowItems items = items.map RawValue.shadow := by
  induction items with
  | nil => rfl
  | cons item rest inductionHypothesis => rw [shadowItems, inductionHypothesis, List.map_cons]

theorem itemsHashable_iff (items : List RawValue) :
    itemsHashable items = true ↔ ∀ item ∈ items, item.hashable = true := by
  induction items with
  | nil => simp [itemsHashable]
  | cons item rest inductionHypothesis => simp [itemsHashable, inductionHypothesis]

theorem membersHashable_iff (members : RawMembers) :
    membersHashable members = true ↔ ∀ member ∈ members, member.2.hashable = true := by
  induction members with
  | nil => simp [membersHashable]
  | cons member rest inductionHypothesis =>
      obtain ⟨key, value⟩ := member
      rw [membersHashable, Bool.and_eq_true, inductionHypothesis, List.forall_mem_cons]

theorem copies_object_of_all {members : Members} (each : ∀ member ∈ members, Copies member.2) :
    Copies (.object members) :=
  fun _ => transformInner_object_of_all fun _ _ member _ => each _ member _

theorem copies_array_of_all {items : List JsValue} (each : ∀ item ∈ items, Copies item) :
    Copies (.array items) := by
  intro path
  obtain ⟨copies, copied⟩ := transformItems_of_all each path 0
  exact ⟨.array copies, by rw [transformInner, copied]; rfl⟩

/-- Every item of an array that is copied is copied. -/
theorem copied_of_array {items : List JsValue} {path : List JsString} {copy : JsValue}
    (copied : transformInner path (.array items) = .ok copy) :
    ∀ item ∈ items, ∃ inner copy, transformInner inner item = .ok copy := by
  rw [transformInner] at copied
  cases result : transformItems path 0 items with
  | error error => rw [result] at copied; cases copied
  | ok copies =>
      intro item member
      have each := List.forall₂_iff_get.mp (transformItems_ok result)
      obtain ⟨index, inside, rfl⟩ := List.getElem_of_mem member
      obtain ⟨inner, here⟩ := each.2 index inside (each.1 ▸ inside)
      exact ⟨inner, _, here⟩

theorem copies_shadow {value : RawValue} (hashable : value.hashable = true) :
    Copies value.shadow := by
  have object : ∀ members : RawMembers, (∀ member ∈ members, Copies member.2.shadow) →
      Copies (.object (shadowMembers members)) := by
    intro members each
    rw [shadowMembers_eq_map]
    refine copies_object_of_all fun member here => ?_
    obtain ⟨source, found, rfl⟩ := List.mem_map.mp here
    exact each source found
  induction value using RawValue.induction with
  | scalar value =>
      cases value with
      | number value => exact fun _ => ⟨_, if_pos hashable⟩
      | symbol => cases hashable
      | builtIn => cases hashable
      | _ => exact fun _ => ⟨_, rfl⟩
  | array items inductionHypothesis =>
      rw [RawValue.hashable, itemsHashable_iff] at hashable
      rw [RawValue.shadow, shadowItems_eq_map]
      refine copies_array_of_all fun item here => ?_
      obtain ⟨source, found, rfl⟩ := List.mem_map.mp here
      exact inductionHypothesis source found (hashable source found)
  | object members inductionHypothesis =>
      rw [RawValue.hashable, membersHashable_iff] at hashable
      exact object members fun member here => inductionHypothesis member here (hashable member here)
  | bare members inductionHypothesis =>
      rw [RawValue.hashable, membersHashable_iff] at hashable
      exact object members fun member here => inductionHypothesis member here (hashable member here)
  | derived prototype members => cases hashable

theorem hashable_of_copied {value : RawValue} :
    ∀ {path : List JsString} {copy : JsValue}, transformInner path value.shadow = .ok copy →
      value.hashable = true := by
  have object : ∀ (members : RawMembers) (path : List JsString) (copy : JsValue),
      (∀ member ∈ members, ∀ {path : List JsString} {copy : JsValue},
        transformInner path member.2.shadow = .ok copy → member.2.hashable = true) →
      transformInner path (.object (shadowMembers members)) = .ok copy →
      membersHashable members = true := by
    intro members path copy each copied
    rw [membersHashable_iff]
    intro member here
    rw [shadowMembers_eq_map] at copied
    obtain ⟨_, inner⟩ := transformInner_of_object copied (List.mem_map.mpr ⟨member, here, rfl⟩)
      (shadow_isUndefined member.2)
    exact each member here inner
  induction value using RawValue.induction with
  | scalar value =>
      intro path copy copied
      cases value with
      | number value =>
          rw [RawValue.shadow, transformInner] at copied
          split at copied
          next finite => exact finite
          next => cases copied
      | symbol => cases copied
      | builtIn => cases copied
      | _ => rfl
  | array items inductionHypothesis =>
      intro path copy copied
      rw [RawValue.hashable, itemsHashable_iff]
      intro item here
      rw [RawValue.shadow, shadowItems_eq_map] at copied
      obtain ⟨_, _, inner⟩ := copied_of_array copied _ (List.mem_map_of_mem here)
      exact inductionHypothesis item here inner
  | object members inductionHypothesis =>
      exact fun copied => object members _ _ inductionHypothesis copied
  | bare members inductionHypothesis =>
      exact fun copied => object members _ _ inductionHypothesis copied
  | derived prototype members => intro path copy copied; cases copied

theorem copies_shadow_iff (value : RawValue) : Copies value.shadow ↔ value.hashable = true :=
  ⟨fun copies => hashable_of_copied (copies []).choose_spec, copies_shadow⟩

/-! ## Documents of specifications -/

section Encoded

variable {α : Type} {Same : α → α → Prop}

theorem copies_strict {encoder : Encoder α Same} (strict : encoder.Strict) (item : α) :
    Copies (encoder.value item) :=
  fun path => transformInner_isJson path (strict item)

theorem copies_list_iff (encoder : Encoder α Same) (items : List α) :
    Copies (encoder.list.value items) ↔ ∀ item ∈ items, Copies (encoder.value item) := by
  constructor
  · intro copies item member
    obtain ⟨copy, copied⟩ := copies []
    obtain ⟨_, _, here⟩ := copied_of_array copied _ (List.mem_map_of_mem member)
    exact copies_of_copied (encoder.wellFormed item) here
  · intro each
    refine copies_array_of_all fun value member => ?_
    obtain ⟨item, found, rfl⟩ := List.mem_map.mp member
    exact each item found

theorem copies_record_of_all {fields : List (RecordField α)} (keys : RecordKeys fields) {item : α}
    (each : ∀ field ∈ fields, ∀ held, field.value item = some held → Copies held) :
    Copies ((Encoder.record fields keys).value item) := by
  refine copies_object_of_all fun member here => ?_
  obtain ⟨field, found, -, value⟩ := RecordKeys.value_mem here
  exact each field found _ value

theorem copies_of_record {fields : List (RecordField α)} (keys : RecordKeys fields) (item : α)
    (copies : Copies ((Encoder.record fields keys).value item)) (field : RecordField α)
    (member : field ∈ fields) {held : JsValue} (value : field.value item = some held)
    (defined : held.isUndefined = false) : Copies held := by
  obtain ⟨copy, copied⟩ := copies []
  have here : (field.key, held) ∈ presentMembers (recordProperties fields item) :=
    mem_presentMembers.mpr (List.mem_map.mpr ⟨field, member, by rw [value]⟩)
  obtain ⟨_, inner⟩ := transformInner_of_object copied here defined
  exact copies_of_copied (field.wellFormed item held value) inner

end Encoded

theorem strict_whole : whole.Strict :=
  fun _ => rfl

theorem strict_positive : positive.Strict :=
  fun _ => rfl

theorem strict_expect : expect.Strict := by
  refine (Encoder.strict_record expectKeys ?_).reading same_expect
  simp only [expectFields, List.forall_mem_cons]
  exact ⟨RecordField.strict_optional strict_whole _ _, List.forall_mem_nil _⟩

theorem strict_assertion : assertion.Strict := by
  refine (Encoder.strict_record assertionKeys ?_).reading same_assertion
  simp only [assertionFields, List.forall_mem_cons]
  exact ⟨RecordField.strict_optional Encoder.strict_flag _ _,
    RecordField.strict_optional Encoder.strict_text _ _,
    RecordField.strict_optional Encoder.strict_text _ _, List.forall_mem_nil _⟩

theorem strict_criterion : criterion.Strict := by
  have text := fun (key : JsString) (read : AcceptanceCriterion → Option JsString) =>
    RecordField.strict_optional Encoder.strict_text key read
  refine (Encoder.strict_record criterionKeys ?_).reading same_criterion
  simp only [criterionFields, List.forall_mem_cons]
  exact ⟨RecordField.strict_required Encoder.strict_text _ _,
    RecordField.strict_required (Encoder.strict_enumeration _) _ _, text _ _,
    RecordField.strict_optional strict_expect _ _, RecordField.strict_optional strict_positive _ _,
    text _ _, RecordField.strict_optional strict_assertion _ _, text _ _, text _ _,
    RecordField.strict_optional Encoder.strict_flag _ _, List.forall_mem_nil _⟩

theorem strict_scope : scope.Strict := by
  refine (Encoder.strict_record scopeKeys ?_).reading same_scope
  simp only [scopeFields, List.forall_mem_cons]
  exact ⟨RecordField.strict_optional strict_texts _ _, RecordField.strict_optional strict_texts _ _,
    List.forall_mem_nil _⟩

theorem strict_metadata : metadata.Strict := by
  refine (Encoder.strict_record metadataKeys ?_).reading same_metadata
  simp only [metadataFields, List.forall_mem_cons]
  exact ⟨RecordField.strict_required Encoder.strict_text _ _,
    RecordField.strict_required Encoder.strict_text _ _,
    RecordField.strict_optional Encoder.strict_text _ _, List.forall_mem_nil _⟩

theorem strict_environment : environment.Strict := by
  refine (Encoder.strict_record environmentKeys ?_).reading same_environment
  simp only [environmentFields, List.forall_mem_cons]
  exact ⟨RecordField.strict_optional strict_texts _ _, List.forall_mem_nil _⟩

theorem copies_strictField {α : Type} {field : RecordField α} (strict : field.Strict) (item : α) :
    ∀ held, field.value item = some held → Copies held :=
  fun held same path => transformInner_isJson path (strict item held same)

/-- The record can be hashed. -/
def UnknownRecord.Copies (record : UnknownRecord) : Prop :=
  Compiler.Copies (.object record.members)

/-- A property is hashed when its metadata is. -/
theorem copies_property_iff (item : DesiredProperty) :
    Copies (property.value item) ↔ ∀ record, item.metadata = some record → record.Copies := by
  constructor
  · intro copies record held
    refine copies_of_record propertyKeys item copies
      (.optional (js "metadata") DesiredProperty.metadata unknownRecord) ?_ ?_ rfl
    · simp only [propertyFields, List.mem_cons, true_or, or_true]
    · exact congrArg (Option.map unknownRecord.value) held
  · intro each
    refine copies_record_of_all propertyKeys ?_
    have required := fun {β : Type} {Same : β → β → Prop} {encoder : Encoder β Same}
        (strict : encoder.Strict) (key : JsString) (read : DesiredProperty → β) =>
      copies_strictField (RecordField.strict_required strict key read) item
    have optional := fun {β : Type} {Same : β → β → Prop} {encoder : Encoder β Same}
        (strict : encoder.Strict) (key : JsString) (read : DesiredProperty → Option β) =>
      copies_strictField (RecordField.strict_optional strict key read) item
    simp only [propertyFields, List.forall_mem_cons]
    refine ⟨required (Encoder.strict_enumeration _) _ _, required Encoder.strict_text _ _,
      required Encoder.strict_text _ _, required (Encoder.strict_enumeration _) _ _,
      optional (Encoder.strict_enumeration _) _ _, required strict_texts _ _,
      required strict_criterion.array _ _, optional strict_scope _ _, ?_, List.forall_mem_nil _⟩
    intro held same
    obtain ⟨record, here, rfl⟩ := Option.map_eq_some_iff.mp same
    exact each record here

/-- A specification is hashed when the metadata of its properties is. -/
theorem copies_specDocument_iff (item : NormalizedSpec) :
    Copies (specDocument.value item) ↔
      ∀ source ∈ item.requirements ++ item.constraints, ∀ record, source.metadata = some record →
        record.Copies := by
  have lists : (Copies (property.list.value item.requirements) ∧
      Copies (property.list.value item.constraints)) ↔
      ∀ source ∈ item.requirements ++ item.constraints, ∀ record, source.metadata = some record →
        record.Copies := by
    rw [List.forall_mem_append, copies_list_iff, copies_list_iff]
    simp only [copies_property_iff]
  rw [← lists]
  constructor
  · intro copies
    constructor
    · refine copies_of_record specKeys item copies
        (.required (js "requirements") NormalizedSpec.requirements property.list) ?_ rfl rfl
      simp only [specFields, List.mem_cons, true_or, or_true]
    · refine copies_of_record specKeys item copies
        (.required (js "constraints") NormalizedSpec.constraints property.list) ?_ rfl rfl
      simp only [specFields, List.mem_cons, true_or, or_true]
  · rintro ⟨requirements, constraints⟩
    have whole : ∀ {β : Type} {Same : β → β → Prop} {encoder : Encoder β Same} (key : JsString)
        (read : NormalizedSpec → β), Copies (encoder.value (read item)) →
        ∀ held, (RecordField.required key read encoder).value item = some held → Copies held := by
      intro β Same encoder key read copies held same
      cases same
      exact copies
    refine copies_record_of_all specKeys ?_
    simp only [specFields, List.forall_mem_cons]
    exact ⟨copies_strictField (RecordField.strict_constant _ _) item,
      copies_strictField (RecordField.strict_constant _ _) item,
      copies_strictField (RecordField.strict_required strict_metadata _ _) item,
      copies_strictField (RecordField.strict_required Encoder.strict_text _ _) item,
      copies_strictField (RecordField.strict_optional strict_texts _ _) item,
      copies_strictField (RecordField.strict_optional strict_environment _ _) item,
      whole _ _ requirements, whole _ _ constraints,
      copies_strictField (RecordField.strict_required strict_texts _ _) item, List.forall_mem_nil _⟩

end SpecAsCode.Compiler
