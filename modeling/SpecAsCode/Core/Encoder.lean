import SpecAsCode.Core.CanonicalIdentity

/-!
# Encoders

The JavaScript values that the records of the schemas are.  An encoder comes with the
relation on records that is left of logical equality of their values, so that a digest of a
whole document is understood from the encoders of its parts.
-/

namespace SpecAsCode.Core

open SpecAsCode.Js

/-! ## Object literals with optional properties -/

/-- The properties of an object literal: those whose value is there. -/
def presentMembers (properties : List (JsString × Option JsValue)) : Members :=
  properties.filterMap fun property => property.2.map fun value => (property.1, value)

theorem keys_presentMembers (properties : List (JsString × Option JsValue)) :
    (presentMembers properties).map Prod.fst =
      (properties.filter fun property => property.2.isSome).map Prod.fst := by
  induction properties with
  | nil => rfl
  | cons property properties inductionHypothesis =>
      obtain ⟨key, value⟩ := property
      cases value with
      | none => exact inductionHypothesis
      | some value => exact congrArg (key :: ·) inductionHypothesis

theorem mem_presentMembers {properties : List (JsString × Option JsValue)} {key : JsString}
    {value : JsValue} :
    (key, value) ∈ presentMembers properties ↔ (key, some value) ∈ properties := by
  rw [presentMembers, List.mem_filterMap]
  constructor
  · rintro ⟨⟨name, found⟩, member, same⟩
    obtain ⟨held, rfl, equal⟩ := Option.map_eq_some_iff.mp same
    cases equal
    exact member
  · intro member
    exact ⟨_, member, rfl⟩

/-- With different keys, every property is found under its key. -/
theorem lookup_presentMembers {properties : List (JsString × Option JsValue)}
    (distinct : (properties.map Prod.fst).Nodup) {key : JsString} {value : Option JsValue}
    (member : (key, value) ∈ properties) :
    lookup key (presentMembers properties) = value.getD .undefined := by
  have keys : ((presentMembers properties).map Prod.fst).Nodup := by
    rw [keys_presentMembers]
    exact distinct.sublist (List.filter_sublist.map _)
  cases value with
  | some value => exact lookup_eq_of_mem keys (mem_presentMembers.mpr member)
  | none =>
      refine lookup_eq_undefined_of_not_mem fun found => ?_
      obtain ⟨⟨name, value⟩, inside, rfl⟩ := List.mem_map.mp found
      have same := List.inj_on_of_nodup_map distinct member (mem_presentMembers.mp inside) rfl
      cases same

theorem lookup_presentMembers_of_not_mem {properties : List (JsString × Option JsValue)}
    {key : JsString} (absent : key ∉ properties.map Prod.fst) :
    lookup key (presentMembers properties) = .undefined := by
  refine lookup_eq_undefined_of_not_mem fun found => absent ?_
  rw [keys_presentMembers] at found
  exact (List.filter_sublist.map _).subset found

/-! ## Encoders of values -/

variable {α β : Type}

/-- How the items of a type are written as values.  `Same` is the relation on items that
logical equality of their values comes to. -/
structure Encoder (α : Type) (Same : α → α → Prop) where
  value : α → JsValue
  defined : ∀ item, (value item).isUndefined = false
  wellFormed : ∀ item, (value item).isWellFormed = true
  plain : ∀ item, withoutProto (value item) = value item
  identifies : ∀ first second, LogicallyEqual (value first) (value second) ↔ Same first second

namespace Encoder

theorem string_iff {first second : JsString} :
    LogicallyEqual (.string first) (.string second) ↔ first = second := by
  constructor
  · intro equal
    cases equal
    rfl
  · rintro rfl
    exact .string first

theorem array_iff {Same : α → α → Prop} {value : α → JsValue}
    (identifies : ∀ first second, LogicallyEqual (value first) (value second) ↔ Same first second)
    (first second : List α) :
    LogicallyEqual (.array (first.map value)) (.array (second.map value)) ↔
      List.Forall₂ Same first second := by
  rw [List.forall₂_iff_get]
  constructor
  · intro equal
    cases equal with
    | array length items =>
        rw [List.length_map, List.length_map] at length
        refine ⟨length, fun index inside otherInside => ?_⟩
        have item := items index
        rw [List.getD_eq_getElem _ _ (by simpa), List.getD_eq_getElem _ _ (by simpa),
          List.getElem_map, List.getElem_map] at item
        exact (identifies _ _).mp item
  · rintro ⟨length, items⟩
    refine .array (by simpa) fun index => ?_
    by_cases inside : index < first.length
    · rw [List.getD_eq_getElem _ _ (by simpa), List.getD_eq_getElem _ _ (by simpa [← length]),
        List.getElem_map, List.getElem_map]
      exact (identifies _ _).mpr (items index inside (length ▸ inside))
    · rw [List.getD_eq_default _ _ (by simpa using inside),
        List.getD_eq_default _ _ (by rw [List.length_map]; omega)]
      exact .undefined

def text : Encoder JsString (· = ·) where
  value := .string
  defined _ := rfl
  wellFormed _ := rfl
  plain _ := rfl
  identifies _ _ := string_iff

theorem bool_iff (first second : Bool) :
    LogicallyEqual (.bool first) (.bool second) ↔ first = second := by
  constructor
  · intro equal
    cases equal
    rfl
  · rintro rfl
    exact .bool first

def flag : Encoder Bool (· = ·) where
  value := .bool
  defined _ := rfl
  wellFormed _ := rfl
  plain _ := rfl
  identifies := bool_iff

theorem number_iff (first second : Double) :
    LogicallyEqual (.number (.finite first)) (.number (.finite second)) ↔ first = second := by
  constructor
  · intro equal
    cases equal
    rfl
  · rintro rfl
    exact .number _

def number : Encoder Double (· = ·) where
  value item := .number (.finite item)
  defined _ := rfl
  wellFormed _ := rfl
  plain _ := rfl
  identifies := number_iff

/-- The items of another type, through a function into this one. -/
def via {Same : α → α → Prop} (encoder : Encoder α Same) (view : β → α) :
    Encoder β (fun first second => Same (view first) (view second)) where
  value item := encoder.value (view item)
  defined item := encoder.defined (view item)
  wellFormed item := encoder.wellFormed (view item)
  plain item := encoder.plain (view item)
  identifies first second := encoder.identifies (view first) (view second)

/-- The same encoder, with its relation said in other words. -/
def reading {Same Other : α → α → Prop} (encoder : Encoder α Same)
    (words : ∀ first second, Same first second ↔ Other first second) : Encoder α Other where
  value := encoder.value
  defined := encoder.defined
  wellFormed := encoder.wellFormed
  plain := encoder.plain
  identifies first second := (encoder.identifies first second).trans (words first second)

/-- The members of an enumeration, by the texts they are spelled with. -/
def enumeration (spelling : α → JsString) (injective : Function.Injective spelling) :
    Encoder α (· = ·) :=
  (text.via spelling).reading fun _ _ => injective.eq_iff

theorem wellFormed_array {Same : α → α → Prop} (encoder : Encoder α Same) (items : List α) :
    (JsValue.array (items.map encoder.value)).isWellFormed = true := by
  rw [JsValue.isWellFormed, itemsAreWellFormed_iff]
  intro value member
  obtain ⟨item, -, rfl⟩ := List.mem_map.mp member
  exact encoder.wellFormed item

theorem plain_array {Same : α → α → Prop} (encoder : Encoder α Same) (items : List α) :
    withoutProto (.array (items.map encoder.value)) = .array (items.map encoder.value) := by
  rw [withoutProto, itemsWithoutProto_eq_map, List.map_map]
  exact congrArg JsValue.array (List.map_congr_left fun item _ => encoder.plain item)

def list {Same : α → α → Prop} (encoder : Encoder α Same) :
    Encoder (List α) (List.Forall₂ Same) where
  value items := .array (items.map encoder.value)
  defined _ := rfl
  wellFormed := encoder.wellFormed_array
  plain := encoder.plain_array
  identifies := array_iff encoder.identifies

/-- An array of items that are compared by equality. -/
def array (encoder : Encoder α (· = ·)) : Encoder (List α) (· = ·) :=
  encoder.list.reading fun first second => by rw [List.forall₂_eq_eq_eq]

end Encoder

/-! ## Encoders of records -/

/-- A property of a record. -/
structure RecordField (α : Type) where
  key : JsString
  value : α → Option JsValue
  Same : α → α → Prop
  wellFormed : ∀ item held, value item = some held → held.isWellFormed = true
  plain : ∀ item held, value item = some held → withoutProto held = held
  identifies : ∀ first second, LogicallyEqual ((value first).getD .undefined)
    ((value second).getD .undefined) ↔ Same first second

theorem optionRel_eq_iff (first second : Option α) :
    Option.Rel (· = ·) first second ↔ first = second := by
  cases first with
  | none =>
      cases second with
      | none => exact iff_of_true .none rfl
      | some other => exact iff_of_false (by rintro ⟨⟩) (by simp)
  | some item =>
      cases second with
      | none => exact iff_of_false (by rintro ⟨⟩) (by simp)
      | some other => rw [Option.rel_some_some, Option.some.injEq]

namespace RecordField

theorem wellFormed_some {Same : β → β → Prop} (encoder : Encoder β Same) (read : α → β) (item : α)
    (held : JsValue) (same : some (encoder.value (read item)) = some held) :
    held.isWellFormed = true := by
  cases same
  exact encoder.wellFormed _

theorem plain_some {Same : β → β → Prop} (encoder : Encoder β Same) (read : α → β) (item : α)
    (held : JsValue) (same : some (encoder.value (read item)) = some held) :
    withoutProto held = held := by
  cases same
  exact encoder.plain _

/-- A property that is always there. -/
def required {Same : β → β → Prop} (key : JsString) (read : α → β) (encoder : Encoder β Same) :
    RecordField α where
  key := key
  value item := some (encoder.value (read item))
  Same first second := Same (read first) (read second)
  wellFormed := wellFormed_some encoder read
  plain := plain_some encoder read
  identifies first second := encoder.identifies (read first) (read second)

/-- A property with one possible value. -/
def constant (key text : JsString) : RecordField α where
  key := key
  value _ := some (.string text)
  Same _ _ := True
  wellFormed := wellFormed_some Encoder.text fun _ => text
  plain := plain_some Encoder.text fun _ => text
  identifies _ _ := iff_of_true (.string text) trivial

theorem wellFormed_map {Same : β → β → Prop} (encoder : Encoder β Same) (read : α → Option β)
    (item : α) (held : JsValue) (same : (read item).map encoder.value = some held) :
    held.isWellFormed = true := by
  obtain ⟨found, -, rfl⟩ := Option.map_eq_some_iff.mp same
  exact encoder.wellFormed found

theorem plain_map {Same : β → β → Prop} (encoder : Encoder β Same) (read : α → Option β)
    (item : α) (held : JsValue) (same : (read item).map encoder.value = some held) :
    withoutProto held = held := by
  obtain ⟨found, -, rfl⟩ := Option.map_eq_some_iff.mp same
  exact encoder.plain found

theorem option_iff {Same : β → β → Prop} (encoder : Encoder β Same) (first second : Option β) :
    LogicallyEqual ((first.map encoder.value).getD .undefined)
      ((second.map encoder.value).getD .undefined) ↔ Option.Rel Same first second := by
  have present : ∀ item, ¬ LogicallyEqual (encoder.value item) .undefined := by
    intro item equal
    have undefined := equal.isUndefined
    rw [encoder.defined] at undefined
    cases undefined
  cases first with
  | none =>
      cases second with
      | none => exact iff_of_true .undefined .none
      | some other => exact iff_of_false (fun equal => present other equal.symm) (by rintro ⟨⟩)
  | some item =>
      cases second with
      | none => exact iff_of_false (present item) (by rintro ⟨⟩)
      | some other => exact (encoder.identifies item other).trans Option.rel_some_some.symm

/-- A property that may be missing. -/
def optional {Same : β → β → Prop} (key : JsString) (read : α → Option β)
    (encoder : Encoder β Same) : RecordField α where
  key := key
  value item := (read item).map encoder.value
  Same first second := Option.Rel Same (read first) (read second)
  wellFormed := wellFormed_map encoder read
  plain := plain_map encoder read
  identifies first second := option_iff encoder (read first) (read second)

end RecordField

/-- The properties a record has. -/
def recordProperties (fields : List (RecordField α)) (item : α) : List (JsString × Option JsValue) :=
  fields.map fun field => (field.key, field.value item)

theorem keys_recordProperties (fields : List (RecordField α)) (item : α) :
    (recordProperties fields item).map Prod.fst = fields.map RecordField.key := by
  rw [recordProperties, List.map_map]
  rfl

/-- The keys are enumerated in the order of the fields, and none is `__proto__`. -/
structure RecordKeys (fields : List (RecordField α)) : Prop where
  ordered : (fields.map RecordField.key).Pairwise KeysInOrder
  visible : protoKey ∉ fields.map RecordField.key

namespace RecordKeys

variable {fields : List (RecordField α)}

theorem distinct (keys : RecordKeys fields) : (fields.map RecordField.key).Nodup :=
  keys.ordered.imp fun inOrder => inOrder.2

theorem value_mem {item : α} {key : JsString} {held : JsValue}
    (member : (key, held) ∈ presentMembers (recordProperties fields item)) :
    ∃ field ∈ fields, field.key = key ∧ field.value item = some held := by
  obtain ⟨field, found, same⟩ := List.mem_map.mp (mem_presentMembers.mp member)
  rw [Prod.mk.injEq] at same
  exact ⟨field, found, same.1, same.2⟩

theorem wellFormed (keys : RecordKeys fields) (item : α) :
    (JsValue.object (presentMembers (recordProperties fields item))).isWellFormed = true := by
  rw [JsValue.isWellFormed, Bool.and_eq_true, decide_eq_true_eq, membersAreWellFormed_iff]
  constructor
  · refine enumerated_of_keys (keys_presentMembers _) ?_
    have kept := keys.ordered
    rw [← keys_recordProperties fields item] at kept
    exact kept.sublist (List.filter_sublist.map _)
  · rintro ⟨key, held⟩ member
    obtain ⟨field, -, -, value⟩ := value_mem member
    exact field.wellFormed item held value

theorem plain (keys : RecordKeys fields) (item : α) :
    withoutProto (.object (presentMembers (recordProperties fields item))) =
      .object (presentMembers (recordProperties fields item)) := by
  have general : ∀ members : Members, protoKey ∉ members.map Prod.fst →
      (∀ member ∈ members, withoutProto member.2 = member.2) →
      membersWithoutProto members = members := by
    intro members
    induction members with
    | nil => intros; rfl
    | cons member members inductionHypothesis =>
        intro visible values
        obtain ⟨key, value⟩ := member
        rw [List.map_cons, List.mem_cons, not_or] at visible
        rw [membersWithoutProto, if_neg (Ne.symm visible.1), values _ List.mem_cons_self,
          inductionHypothesis visible.2 fun other later => values other (List.mem_cons_of_mem _ later)]
  rw [withoutProto, general]
  · intro found
    rw [keys_presentMembers] at found
    refine keys.visible ?_
    rw [← keys_recordProperties fields item]
    exact (List.filter_sublist.map _).subset found
  · rintro ⟨key, held⟩ member
    obtain ⟨field, -, -, value⟩ := value_mem member
    exact field.plain item held value

theorem lookup_record (keys : RecordKeys fields) (item : α) {field : RecordField α}
    (member : field ∈ fields) :
    lookup field.key (presentMembers (recordProperties fields item)) =
      (field.value item).getD .undefined := by
  refine lookup_presentMembers ?_ (List.mem_map.mpr ⟨field, member, rfl⟩)
  rw [keys_recordProperties]
  exact keys.distinct

/-- Records are written alike when all their fields agree. -/
theorem identifies (keys : RecordKeys fields) (first second : α) :
    LogicallyEqual (.object (presentMembers (recordProperties fields first)))
        (.object (presentMembers (recordProperties fields second))) ↔
      ∀ field ∈ fields, field.Same first second := by
  constructor
  · intro equal field member
    cases equal with
    | object properties =>
        have property := properties field.key
        rw [keys.lookup_record first member, keys.lookup_record second member] at property
        exact (field.identifies first second).mp property
  · intro agree
    refine .object fun key => ?_
    by_cases known : key ∈ fields.map RecordField.key
    · obtain ⟨field, member, rfl⟩ := List.mem_map.mp known
      rw [keys.lookup_record first member, keys.lookup_record second member]
      exact (field.identifies first second).mpr (agree field member)
    · rw [lookup_presentMembers_of_not_mem (by rwa [keys_recordProperties]),
        lookup_presentMembers_of_not_mem (by rwa [keys_recordProperties])]
      exact .undefined

end RecordKeys

/-- A record as an object with its fields as properties. -/
def Encoder.record (fields : List (RecordField α)) (keys : RecordKeys fields) :
    Encoder α (fun first second => ∀ field ∈ fields, field.Same first second) where
  value item := .object (presentMembers (recordProperties fields item))
  defined _ := rfl
  wellFormed := keys.wellFormed
  plain := keys.plain
  identifies := keys.identifies

/-! ## Encoders without numbers that cannot be written -/

/-- Every value of the encoder is one that a JSON text denotes. -/
def Encoder.Strict {Same : α → α → Prop} (encoder : Encoder α Same) : Prop :=
  ∀ item, (encoder.value item).isJson = true

def RecordField.Strict (field : RecordField α) : Prop :=
  ∀ item held, field.value item = some held → held.isJson = true

namespace Encoder

theorem strict_text : text.Strict :=
  fun _ => rfl

theorem strict_flag : flag.Strict :=
  fun _ => rfl

theorem strict_enumeration {spelling : α → JsString} (injective : Function.Injective spelling) :
    (enumeration spelling injective).Strict :=
  fun _ => rfl

theorem Strict.list {Same : α → α → Prop} {encoder : Encoder α Same} (strict : encoder.Strict) :
    encoder.list.Strict := by
  intro items
  show (JsValue.array (items.map encoder.value)).isJson = true
  rw [JsValue.isJson, itemsAreJson_iff]
  intro value member
  obtain ⟨item, -, rfl⟩ := List.mem_map.mp member
  exact strict item

theorem Strict.array {encoder : Encoder α (· = ·)} (strict : encoder.Strict) :
    encoder.array.Strict :=
  strict.list

theorem Strict.reading {Same Other : α → α → Prop} {encoder : Encoder α Same}
    (strict : encoder.Strict) (words : ∀ first second, Same first second ↔ Other first second) :
    (encoder.reading words).Strict :=
  strict

theorem strict_record {fields : List (RecordField α)} (keys : RecordKeys fields)
    (strict : ∀ field ∈ fields, field.Strict) : (record fields keys).Strict := by
  intro item
  have wellFormed := keys.wellFormed item
  rw [JsValue.isWellFormed, Bool.and_eq_true] at wellFormed
  show (JsValue.object (presentMembers (recordProperties fields item))).isJson = true
  rw [JsValue.isJson, Bool.and_eq_true, membersAreJson_iff]
  refine ⟨wellFormed.1, ?_⟩
  rintro ⟨key, held⟩ member
  obtain ⟨field, found, -, value⟩ := RecordKeys.value_mem member
  exact strict field found item held value

end Encoder

namespace RecordField

theorem strict_required {Same : β → β → Prop} {encoder : Encoder β Same} (strict : encoder.Strict)
    (key : JsString) (read : α → β) : (required key read encoder).Strict := by
  intro item held same
  cases same
  exact strict (read item)

theorem strict_optional {Same : β → β → Prop} {encoder : Encoder β Same} (strict : encoder.Strict)
    (key : JsString) (read : α → Option β) : (optional key read encoder).Strict := by
  intro item held same
  obtain ⟨found, -, rfl⟩ := Option.map_eq_some_iff.mp same
  exact strict found

theorem strict_constant (key text : JsString) : (@constant α key text).Strict := by
  intro item held same
  cases same
  rfl

end RecordField

/-! ## Digests -/

theorem transformItems_of_all {items : List JsValue}
    (copied : ∀ item ∈ items, ∀ path, ∃ copy, transformInner path item = .ok copy)
    (path : List JsString) (index : Nat) :
    ∃ copies, transformItems path index items = .ok copies := by
  induction items generalizing index with
  | nil => exact ⟨[], rfl⟩
  | cons item rest inductionHypothesis =>
      obtain ⟨copy, equal⟩ := copied item List.mem_cons_self (path ++ [natText index])
      obtain ⟨copies, others⟩ := inductionHypothesis
        (fun other later => copied other (List.mem_cons_of_mem _ later)) (index + 1)
      refine ⟨copy :: copies, ?_⟩
      have defined : item.isUndefined = false := by
        cases item with
        | undefined => cases equal
        | _ => rfl
      rw [transformItems, defined, if_neg (by simp), equal, others]
      rfl

theorem transformInner_object_of_all {members : Members} {path : List JsString}
    (copied : ∀ key value, (key, value) ∈ members → value.isUndefined = false →
      ∃ copy, transformInner (path ++ [key]) value = .ok copy) :
    ∃ copy, transformInner path (.object members) = .ok copy := by
  have values : ∀ entries : List (JsString × Except CanonicalError JsValue),
      (∀ entry ∈ entries, ∃ copy, entry.2 = .ok copy) →
      ∃ copies : Members, entries = copies.map fun copy => (copy.1, .ok copy.2) := by
    intro entries ok
    induction entries with
    | nil => exact ⟨[], rfl⟩
    | cons entry rest inductionHypothesis =>
        obtain ⟨copy, equal⟩ := ok entry List.mem_cons_self
        obtain ⟨copies, rfl⟩ := inductionHypothesis fun other later =>
          ok other (List.mem_cons_of_mem _ later)
        exact ⟨(entry.1, copy) :: copies, by rw [List.map_cons, ← equal]⟩
  obtain ⟨copies, shape⟩ := values (sortEntries (transformMembers path members)) (by
    rintro ⟨key, result⟩ member
    obtain ⟨value, found, defined, rfl⟩ := mem_transformMembers.mp (mem_sortEntries.mp member)
    exact copied key value found defined)
  exact ⟨_, by rw [transformInner, shape, assignAll_values]; rfl⟩

theorem transformInner_of_object {members : Members} {path : List JsString} {copy : JsValue}
    (succeeds : transformInner path (.object members) = .ok copy) {key : JsString} {value : JsValue}
    (member : (key, value) ∈ members) (defined : value.isUndefined = false) :
    ∃ copy, transformInner (path ++ [key]) value = .ok copy := by
  rw [transformInner] at succeeds
  cases filled : assignAll (sortEntries (transformMembers path members)) with
  | error error => rw [filled] at succeeds; cases succeeds
  | ok out =>
      obtain ⟨copies, shape, -⟩ := assignAll_ok filled
      have entry : (key, transformInner (path ++ [key]) value) ∈
          sortEntries (transformMembers path members) :=
        mem_sortEntries.mpr (mem_transformMembers.mpr ⟨value, member, defined, rfl⟩)
      rw [shape, List.mem_map] at entry
      obtain ⟨source, -, same⟩ := entry
      rw [Prod.mk.injEq] at same
      exact ⟨source.2, same.2.symm⟩

/-- A value that equals one that is copied is copied, wherever it stands. -/
theorem transformInner_of_equal {first : JsValue} :
    ∀ {second : JsValue} {path : List JsString} {copy : JsValue},
      first.isWellFormed = true → second.isWellFormed = true → LogicallyEqual first second →
      transformInner path first = .ok copy →
      ∀ otherPath, ∃ other, transformInner otherPath second = .ok other := by
  induction first using JsValue.induction with
  | undefined => intro _ _ _ _ _ _ succeeds; cases succeeds
  | null => intro _ _ _ _ _ equal _ _; cases equal; exact ⟨_, rfl⟩
  | bool value => intro _ _ _ _ _ equal _ _; cases equal; exact ⟨_, rfl⟩
  | string value => intro _ _ _ _ _ equal _ _; cases equal; exact ⟨_, rfl⟩
  | number value =>
      intro _ _ _ _ _ equal succeeds _
      cases equal
      rw [transformInner] at succeeds
      split at succeeds
      next finite => exact ⟨_, if_pos finite⟩
      next => cases succeeds
  | array items inductionHypothesis =>
      intro second path copy wellFormed otherWellFormed equal succeeds otherPath
      cases equal with
      | @array _ others length equalItems =>
          rw [JsValue.isWellFormed, itemsAreWellFormed_iff] at wellFormed otherWellFormed
          rw [transformInner] at succeeds
          cases result : transformItems path 0 items with
          | error error => rw [result] at succeeds; cases succeeds
          | ok copies =>
              have each := List.forall₂_iff_get.mp (transformItems_ok result)
              have all : ∀ other ∈ others, ∀ path, ∃ copy, transformInner path other = .ok copy := by
                intro other member path
                obtain ⟨index, inside, rfl⟩ := List.getElem_of_mem member
                have here : index < items.length := by omega
                obtain ⟨inner, copied⟩ := each.2 index here (each.1 ▸ here)
                have item := equalItems index
                rw [List.getD_eq_getElem _ _ here, List.getD_eq_getElem _ _ inside] at item
                exact inductionHypothesis _ (List.getElem_mem here)
                  (wellFormed _ (List.getElem_mem here)) (otherWellFormed _ member) item copied path
              obtain ⟨otherCopies, otherResult⟩ := transformItems_of_all all otherPath 0
              exact ⟨.array otherCopies, by rw [transformInner, otherResult]; rfl⟩
  | object members inductionHypothesis =>
      intro second path copy wellFormed otherWellFormed equal succeeds otherPath
      cases equal with
      | @object _ others properties =>
          rw [JsValue.isWellFormed, Bool.and_eq_true, decide_eq_true_eq,
            membersAreWellFormed_iff] at wellFormed otherWellFormed
          refine transformInner_object_of_all fun key value member defined => ?_
          have property := properties key
          rw [lookup_eq_of_mem otherWellFormed.1.distinct member] at property
          have held : (lookup key members).isUndefined = false := property.isUndefined.trans defined
          rcases lookup_mem_or_undefined key members with found | absent
          · obtain ⟨copied, copies⟩ := transformInner_of_object succeeds found held
            exact inductionHypothesis _ found (wellFormed.2 _ found) (otherWellFormed.2 _ member)
              property copies _
          · rw [absent] at held
            cases held

theorem Encoder.canonicalizable_of_same {Same : α → α → Prop} (encoder : Encoder α Same)
    {first second : α} (same : Same first second)
    (succeeds : Canonicalizable ⟨encoder.value first, encoder.wellFormed first⟩) :
    Canonicalizable ⟨encoder.value second, encoder.wellFormed second⟩ := by
  obtain ⟨copy, copied⟩ := succeeds
  exact transformInner_of_equal (encoder.wellFormed first) (encoder.wellFormed second)
    ((encoder.identifies first second).mpr same) copied []

theorem canonicalizable_of_digestOf {value : JsonLike} {sha256Hex : JsString → JsString}
    {digest : JsString} (hashed : digestOf sha256Hex value.val = .ok digest) :
    Canonicalizable value := by
  rw [digestOf, canonicalJson] at hashed
  cases copied : canonicalize value.val with
  | error error => rw [copied] at hashed; cases hashed
  | ok copy => exact ⟨copy, copied⟩

theorem digestOf_of_canonicalizable {value : JsonLike} (sha256Hex : JsString → JsString)
    (succeeds : Canonicalizable value) : ∃ digest, digestOf sha256Hex value.val = .ok digest := by
  obtain ⟨copy, copied⟩ := succeeds
  exact ⟨_, by rw [digestOf, canonicalJson, copied]; rfl⟩

theorem Encoder.Strict.digestOf_ok {Same : α → α → Prop} {encoder : Encoder α Same}
    (strict : encoder.Strict) (sha256Hex : JsString → JsString) (item : α) :
    ∃ digest, digestOf sha256Hex (encoder.value item) = .ok digest :=
  @digestOf_of_canonicalizable ⟨encoder.value item, encoder.wellFormed item⟩ sha256Hex
    (transformInner_isJson [] (strict item))

/-- With an injective hash, an item has the digest of another one exactly when the two are
the same. -/
theorem Encoder.digest_iff {Same : α → α → Prop} (encoder : Encoder α Same)
    {sha256Hex : JsString → JsString} (injective : Function.Injective sha256Hex) {first : α}
    {digest : JsString} (hashed : digestOf sha256Hex (encoder.value first) = .ok digest)
    (second : α) :
    digestOf sha256Hex (encoder.value second) = .ok digest ↔ Same first second := by
  have succeeds : Canonicalizable ⟨encoder.value first, encoder.wellFormed first⟩ :=
    canonicalizable_of_digestOf hashed
  have equal : ∀ otherSucceeds : Canonicalizable ⟨encoder.value second, encoder.wellFormed second⟩,
      digestOf sha256Hex (encoder.value first) = digestOf sha256Hex (encoder.value second) ↔
        Same first second := by
    intro otherSucceeds
    have texts := (digestOf_eq_iff injective succeeds otherSucceeds).trans
      (canonicalJson_eq_iff succeeds otherSucceeds)
    rw [encoder.plain, encoder.plain, encoder.identifies] at texts
    exact texts
  constructor
  · intro otherHashed
    exact (equal (canonicalizable_of_digestOf otherHashed)).mp (hashed.trans otherHashed.symm)
  · intro same
    rw [← hashed]
    exact ((equal (encoder.canonicalizable_of_same same succeeds)).mpr same).symm

end SpecAsCode.Core
