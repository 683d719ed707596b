import SpecAsCode.Core.Canonical
import SpecAsCode.Harness.SchemaCheck
import SpecAsCode.Js.RoundTrip

/-!
# The meaning of the checked keywords

Which values a schema of the covered keywords allows, and where the checker decides the same:
it compares texts, so that the order of keys counts, takes the names of `Object.prototype` for
present, and measures texts in code units.
-/

namespace SpecAsCode.Harness

open SpecAsCode.Js
open SpecAsCode.Core (LogicallyEqual)

/-! ## Keywords -/

def propertiesOf (schema : Members) : Members :=
  (asMembers (lookup (js "properties") schema)).getD []

def requiredOf (schema : Members) : List JsString :=
  ((asItems (lookup (js "required") schema)).getD []).map JsValue.display

def choicesOf (schema : Members) : Option (List JsValue) :=
  asItems (lookup (js "enum") schema)

def branchesOf (schema : Members) : Option (List JsValue) :=
  asItems (lookup (js "oneOf") schema)

def itemsOf (schema : Members) : JsValue :=
  lookup (js "items") schema

def constantOf (schema : Members) : JsValue :=
  lookup (js "const") schema

/-- `additionalProperties: false`. -/
def IsClosed (schema : Members) : Prop :=
  lookup (js "additionalProperties") schema = .bool false

def TYPE_NAMES : List JsString :=
  [js "null", js "boolean", js "object", js "array", js "number", js "string", js "integer"]

/-- Every keyword that is there has a value of its kind. -/
structure WellFormedKeywords (schema : Members) : Prop where
  type : lookup (js "type") schema = .undefined ∨
    (∃ name ∈ TYPE_NAMES, lookup (js "type") schema = .string name) ∨
    ∃ names : List JsString, (∀ name ∈ names, name ∈ TYPE_NAMES) ∧
      lookup (js "type") schema = .array (names.map .string)
  properties : lookup (js "properties") schema = .undefined ∨
    ∃ members, lookup (js "properties") schema = .object members
  required : lookup (js "required") schema = .undefined ∨
    ∃ names : List JsString, lookup (js "required") schema = .array (names.map .string)
  additional : lookup (js "additionalProperties") schema = .undefined ∨ IsClosed schema
  choices : lookup (js "enum") schema = .undefined ∨
    ∃ choices, lookup (js "enum") schema = .array choices
  minLength : lookup (js "minLength") schema = .undefined ∨
    ∃ least, lookup (js "minLength") schema = .number (JsNumber.ofNat least)
  branches : lookup (js "oneOf") schema = .undefined ∨
    ∃ branches, lookup (js "oneOf") schema = .array branches

/-- A schema that is built from the keywords. -/
inductive IsSchema : JsValue → Prop
  | object {schema : Members} (json : (JsValue.object schema).isJson = true)
      (keywords : WellFormedKeywords schema)
      (properties : ∀ member ∈ propertiesOf schema, IsSchema member.2)
      (items : (itemsOf schema).isUndefined = false → IsSchema (itemsOf schema))
      (branches : ∀ branches, branchesOf schema = some branches →
        ∀ branch ∈ branches, IsSchema branch) :
      IsSchema (.object schema)

/-! ## Meaning -/

/-- The Unicode characters of a text. -/
def characters : JsString → Nat
  | [] => 0
  | [_] => 1
  | first :: second :: rest =>
      if isHighSurrogate first && isLowSurrogate second then characters rest + 1
      else characters (second :: rest) + 1

def HasType : JsValue → JsString → Prop
  | .undefined, _ => False
  | .null, name => name = js "null"
  | .bool _, name => name = js "boolean"
  | .number value, name =>
      name = js "number" ∨ name = js "integer" ∧ isInteger value = true
  | .string _, name => name = js "string"
  | .array _, name => name = js "array"
  | .object _, name => name = js "object"

def ConstHolds (schema : Members) (value : JsValue) : Prop :=
  (constantOf schema).isUndefined = false → LogicallyEqual value (constantOf schema)

def EnumHolds (schema : Members) (value : JsValue) : Prop :=
  ∀ choices, choicesOf schema = some choices → ∃ choice ∈ choices, LogicallyEqual value choice

def TypeHolds (schema : Members) (value : JsValue) : Prop :=
  ∀ allowed, allowedTypes schema = some allowed → ∃ name ∈ allowed, HasType value name

def RequiredHolds (schema object : Members) : Prop :=
  ∀ key ∈ requiredOf schema, key ∈ object.map Prod.fst

def ClosedHolds (schema object : Members) : Prop :=
  IsClosed schema → ∀ key ∈ object.map Prod.fst, key ∈ (propertiesOf schema).map Prod.fst

def LengthHolds (schema : Members) (value : JsValue) : Prop :=
  ∀ text least, value = .string text → lookup (js "minLength") schema = .number least →
    shorterThan (characters text) least = false

/-- The value is valid under the schema.  The chosen branch is one of `oneOf`, if there are
any. -/
inductive Valid : JsValue → JsValue → Prop
  | object {schema : Members} {value : JsValue} (constant : ConstHolds schema value)
      (choices : EnumHolds schema value) (type : TypeHolds schema value)
      (required : ∀ object, value = .object object → RequiredHolds schema object)
      (closed : ∀ object, value = .object object → ClosedHolds schema object)
      (properties : ∀ object, value = .object object → ∀ member ∈ propertiesOf schema,
        ∀ found, (member.1, found) ∈ object → Valid member.2 found)
      (items : ∀ items, value = .array items → (itemsOf schema).isUndefined = false →
        ∀ item ∈ items, Valid (itemsOf schema) item)
      (length : LengthHolds schema value) (branch : JsValue)
      (chosen : ∀ branches, branchesOf schema = some branches → branch ∈ branches)
      (matched : (branchesOf schema).isSome = true → Valid branch value) :
      Valid (.object schema) value

/-! ## Where the checker decides the same -/

/-- The constants that a value equals up to the order of keys are the value itself. -/
structure TextsDecide (schema : Members) (value : JsValue) : Prop where
  constant : (constantOf schema).isUndefined = false →
    LogicallyEqual value (constantOf schema) → value = constantOf schema
  choices : ∀ choices, choicesOf schema = some choices →
    (∃ choice ∈ choices, LogicallyEqual value choice) → value ∈ choices

/-- No name of `Object.prototype` is taken for a property of the value or of the schema. -/
structure NamesDecide (schema object : Members) : Prop where
  required : ∀ key ∈ requiredOf schema, key ∈ PROTOTYPE_KEYS → key ∈ object.map Prod.fst
  properties : ∀ member ∈ propertiesOf schema, member.1 ∈ PROTOTYPE_KEYS →
    member.1 ∈ object.map Prod.fst
  closed : IsClosed schema → ∀ key ∈ object.map Prod.fst, key ∈ PROTOTYPE_KEYS →
    key ∈ (propertiesOf schema).map Prod.fst

/-- A text with enough code units has enough characters. -/
def UnitsDecide (schema : Members) (value : JsValue) : Prop :=
  ∀ text least, value = .string text → lookup (js "minLength") schema = .number least →
    shorterThan text.length least = shorterThan (characters text) least

/-- Each keyword decides what it means, wherever the checker gets to. -/
inductive Decides : JsValue → JsValue → Prop
  | object {schema : Members} {value : JsValue} (texts : TextsDecide schema value)
      (names : TypeHolds schema value → ∀ object, value = .object object →
        NamesDecide schema object)
      (units : TypeHolds schema value → UnitsDecide schema value)
      (properties : TypeHolds schema value → ∀ object, value = .object object →
        ∀ member ∈ propertiesOf schema, ∀ found, (member.1, found) ∈ object →
          Decides member.2 found)
      (items : TypeHolds schema value → ∀ items, value = .array items →
        (itemsOf schema).isUndefined = false → ∀ item ∈ items, Decides (itemsOf schema) item)
      (branches : TypeHolds schema value → ∀ branches, branchesOf schema = some branches →
        ∀ branch ∈ branches, Decides branch value) :
      Decides (.object schema) value

/-! ## Nesting -/

theorem nesting_mem_items {items : List JsValue} {item : JsValue} (member : item ∈ items) :
    nesting item ≤ itemsNesting items := by
  induction items with
  | nil => exact absurd member List.not_mem_nil
  | cons first rest inductionHypothesis =>
      rw [itemsNesting]
      rcases List.mem_cons.mp member with rfl | later
      · exact Nat.le_max_left _ _
      · exact (inductionHypothesis later).trans (Nat.le_max_right _ _)

theorem nesting_mem_members {members : Members} {member : JsString × JsValue}
    (inside : member ∈ members) : nesting member.2 ≤ membersNesting members := by
  induction members with
  | nil => exact absurd inside List.not_mem_nil
  | cons first rest inductionHypothesis =>
      rw [membersNesting]
      rcases List.mem_cons.mp inside with rfl | later
      · exact Nat.le_max_left _ _
      · exact (inductionHypothesis later).trans (Nat.le_max_right _ _)

theorem nesting_lookup {members : Members} {key : JsString}
    (defined : (lookup key members).isUndefined = false) :
    nesting (lookup key members) ≤ membersNesting members := by
  rcases lookup_mem_or_undefined key members with member | absent
  · exact nesting_mem_members member
  · rw [absent] at defined
    cases defined

theorem nesting_property {schema : Members} {member : JsString × JsValue}
    (inside : member ∈ propertiesOf schema) : nesting member.2 < membersNesting schema := by
  rw [propertiesOf] at inside
  have bound := @nesting_lookup schema (js "properties")
  cases found : lookup (js "properties") schema with
  | object members =>
      rw [found] at inside bound
      have within := @nesting_mem_members members member inside
      have outer := bound rfl
      rw [nesting] at outer
      omega
  | _ =>
      rw [found] at inside
      exact absurd inside List.not_mem_nil

theorem nesting_branch {schema : Members} {branches : List JsValue} {branch : JsValue}
    (found : branchesOf schema = some branches) (inside : branch ∈ branches) :
    nesting branch < membersNesting schema := by
  rw [branchesOf] at found
  have bound := @nesting_lookup schema (js "oneOf")
  cases named : lookup (js "oneOf") schema with
  | array items =>
      rw [named] at found bound
      cases found
      have within := nesting_mem_items inside
      have outer := bound rfl
      rw [nesting] at outer
      omega
  | _ =>
      rw [named] at found
      cases found

/-! ## One keyword -/

theorem jsonEqual_iff {first second : JsValue} (json : first.isJson = true)
    (otherJson : second.isJson = true) : jsonEqual first second = true ↔ first = second := by
  constructor
  · intro same
    rw [jsonEqual, Bool.and_eq_true, beq_iff_eq, beq_iff_eq] at same
    have read := parseJson_stringify json
    rw [same.2, parseJson_stringify otherJson] at read
    exact (Option.some.inj read).symm
  · rintro rfl
    rw [jsonEqual, beq_self_eq_true, beq_self_eq_true, Bool.and_self]

theorem isJson_lookup {members : Members} (json : (JsValue.object members).isJson = true)
    {key : JsString} (defined : (lookup key members).isUndefined = false) :
    (lookup key members).isJson = true := by
  rw [JsValue.isJson, Bool.and_eq_true, membersAreJson_iff] at json
  rcases lookup_mem_or_undefined key members with member | absent
  · exact json.2 _ member
  · rw [absent] at defined
    cases defined

theorem isJson_choice {schema : Members} (json : (JsValue.object schema).isJson = true)
    {choices : List JsValue} (found : choicesOf schema = some choices) :
    ∀ choice ∈ choices, choice.isJson = true := by
  rw [choicesOf] at found
  have whole := @isJson_lookup schema json (js "enum")
  cases named : lookup (js "enum") schema with
  | array items =>
      rw [named] at found whole
      cases found
      have every := whole rfl
      rwa [JsValue.isJson, itemsAreJson_iff] at every
  | _ =>
      rw [named] at found
      cases found

/-- `const` and `enum`. -/
theorem valueIssues_eq_nil {schema : Members} (json : (JsValue.object schema).isJson = true)
    {value : JsValue} (valueJson : value.isJson = true) (path : JsString) :
    valueIssues schema value path = [] ↔
      ((constantOf schema).isUndefined = false → value = constantOf schema) ∧
        ∀ choices, choicesOf schema = some choices → value ∈ choices := by
  rw [valueIssues, List.append_eq_nil_iff]
  refine and_congr ?_ ?_
  · rw [← constantOf]
    cases defined : (constantOf schema).isUndefined with
    | true => simp
    | false =>
        have equal := jsonEqual_iff valueJson (isJson_lookup json defined)
        rw [← constantOf] at equal
        cases decided : jsonEqual value (constantOf schema) with
        | true => exact iff_of_true (by simp) fun _ => equal.mp decided
        | false =>
            refine iff_of_false (by simp) fun same => ?_
            rw [equal.mpr (same rfl)] at decided
            cases decided
  · rw [← choicesOf]
    cases found : choicesOf schema with
    | none => exact iff_of_true rfl nofun
    | some choices =>
        have among : choices.any (jsonEqual value) = true ↔ value ∈ choices := by
          rw [List.any_eq_true]
          constructor
          · rintro ⟨choice, inside, equal⟩
            rw [(jsonEqual_iff valueJson (isJson_choice json found choice inside)).mp equal]
            exact inside
          · intro inside
            exact ⟨value, inside, (jsonEqual_iff valueJson valueJson).mpr rfl⟩
        have single : (∀ others, some choices = some others → value ∈ others) ↔
            value ∈ choices := by simp
        rw [single, ← among]
        cases decided : choices.any (jsonEqual value) with
        | true => exact iff_of_true (by simp [decided]) rfl
        | false => exact iff_of_false (by simp [decided]) Bool.false_ne_true

theorem hasType_iff {value : JsValue} (json : value.isJson = true) (name : JsString) :
    HasType value name ↔ name = typeOf value ∨ name = js "integer" ∧ isIntegerValue value = true := by
  cases value with
  | undefined => cases json
  | number value => exact Iff.rfl
  | _ => simp [HasType, typeOf, isIntegerValue]

theorem typeIssue_eq_none {schema : Members} {value : JsValue} (json : value.isJson = true)
    (path : JsString) : typeIssue schema (.json value) path = none ↔ TypeHolds schema value := by
  rw [typeIssue, TypeHolds]
  cases allowedTypes schema with
  | none => exact iff_of_true rfl nofun
  | some allowed =>
      rw [Option.bind_some]
      simp only [Option.some.injEq, forall_eq', hasType_iff json]
      have decided : (allowed.contains (typeOf value) ||
          (allowed.contains (js "integer") && isIntegerValue value)) = true ↔
          ∃ name ∈ allowed, name = typeOf value ∨
            name = js "integer" ∧ isIntegerValue value = true := by
        rw [Bool.or_eq_true, Bool.and_eq_true, List.contains_iff_mem, List.contains_iff_mem]
        constructor
        · rintro (among | ⟨among, integer⟩)
          · exact ⟨_, among, Or.inl rfl⟩
          · exact ⟨_, among, Or.inr ⟨rfl, integer⟩⟩
        · rintro ⟨name, among, rfl | ⟨rfl, integer⟩⟩
          · exact Or.inl among
          · exact Or.inr ⟨among, integer⟩
      rw [← decided, Subject.type, Subject.value]
      split_ifs with holds
      · exact iff_of_true rfl holds
      · exact iff_of_false nofun holds

theorem inObject_iff {key : JsString} {members : Members}
    (own : key ∈ PROTOTYPE_KEYS → key ∈ members.map Prod.fst) :
    inObject key members = true ↔ key ∈ members.map Prod.fst := by
  have any_iff : members.any (fun member => member.1 == key) = true ↔ key ∈ members.map Prod.fst := by
    rw [List.any_eq_true, List.mem_map]
    simp only [beq_iff_eq]
  rw [inObject, Bool.or_eq_true, any_iff, List.contains_iff_mem]
  exact ⟨fun present => present.elim id own, Or.inl⟩

/-- `required` and `additionalProperties`. -/
theorem nameIssues_eq_nil {schema object : Members} (decide : NamesDecide schema object)
    (path : JsString) :
    nameIssues schema object path = [] ↔
      RequiredHolds schema object ∧ ClosedHolds schema object := by
  rw [nameIssues, ← propertiesOf, ← requiredOf, List.append_eq_nil_iff, List.map_eq_nil_iff,
    List.map_eq_nil_iff]
  refine and_congr ?_ ?_
  · rw [List.filter_eq_nil_iff]
    refine forall₂_congr fun key among => ?_
    rw [Bool.not_eq_true', Bool.not_eq_false, inObject_iff (decide.required key among)]
  · rw [ClosedHolds, IsClosed]
    split
    next closed =>
      rw [List.filter_eq_nil_iff]
      refine ⟨fun every _ key among => ?_, fun every key among => ?_⟩
      · have present := every key among
        rwa [Bool.not_eq_true', Bool.not_eq_false,
          inObject_iff (decide.closed closed key among)] at present
      · rw [Bool.not_eq_true', Bool.not_eq_false, inObject_iff (decide.closed closed key among)]
        exact every closed key among
    next other => exact iff_of_true rfl fun closed => absurd closed other

theorem lengthIssues_eq_nil {schema : Members} {value : JsValue} (units : UnitsDecide schema value)
    (path : JsString) : lengthIssues schema value path = [] ↔ LengthHolds schema value := by
  unfold lengthIssues
  split
  next text least found =>
    have same := units text least rfl found
    constructor
    · intro none other bound equal named
      cases equal
      rw [found] at named
      cases named
      rw [← same]
      split_ifs at none with short
      simpa using short
    · intro holds
      rw [if_neg]
      rw [same, holds text least rfl found]
      exact Bool.false_ne_true
  next other =>
    refine iff_of_true rfl ?_
    rintro text least rfl found
    exact absurd found (other text least rfl)

/-! ## One level of a schema -/

section Level

variable {check : JsValue → Subject → JsString → List SchemaIssue} {schema : Members}
  {value : JsValue} {path : JsString}

/-- A property that is there under a name of its own. -/
theorem read_own {object : Members} {key : JsString} (own : key ∈ object.map Prod.fst) :
    Subject.read key (.json (.object object)) = .json (lookup key object) := by
  obtain ⟨member, inside, rfl⟩ := List.mem_map.mp own
  have found : object.any (fun other => other.1 == member.1) = true :=
    List.any_eq_true.mpr ⟨member, inside, beq_self_eq_true _⟩
  rw [Subject.read, if_pos found]

theorem memberIssues_eq_nil (json : value.isJson = true)
    (names : ∀ object, value = .object object → NamesDecide schema object) :
    memberIssues check schema (.json value) path = [] ↔
      (∀ object, value = .object object → RequiredHolds schema object) ∧
      (∀ object, value = .object object → ClosedHolds schema object) ∧
      ∀ object, value = .object object → ∀ member ∈ propertiesOf schema,
        ∀ found, (member.1, found) ∈ object →
          check member.2 (.json found) (path ++ js "." ++ member.1) = [] := by
  cases value with
  | object object =>
      have decide := names object rfl
      have enumerated : Enumerated object := by
        rw [JsValue.isJson, Bool.and_eq_true, decide_eq_true_eq] at json
        exact json.1
      simp only [JsValue.object.injEq, forall_eq']
      rw [memberIssues, Subject.value, asMembers, List.append_eq_nil_iff,
        nameIssues_eq_nil decide, and_assoc, List.flatMap_eq_nil_iff]
      refine and_congr_right fun _ => and_congr_right fun _ => forall₂_congr fun member among => ?_
      have own := inObject_iff (decide.properties member among)
      constructor
      · intro passes found inside
        have present := List.mem_map_of_mem (f := Prod.fst) inside
        rw [if_pos (own.mpr present), read_own present,
          lookup_eq_of_mem enumerated.distinct inside] at passes
        exact passes
      · intro passes
        split_ifs with present
        · have inside := own.mp present
          rw [read_own inside]
          obtain ⟨⟨key, found⟩, some, same⟩ := List.mem_map.mp inside
          obtain rfl : key = member.1 := same
          rw [lookup_eq_of_mem enumerated.distinct some]
          exact passes found some
        · rfl
  | _ =>
      refine iff_of_true rfl ⟨?_, ?_, ?_⟩ <;> intro object same <;> cases same

theorem itemIssues_eq_nil :
    itemIssues check schema (.json value) path = [] ↔
      ∀ items, value = .array items → (itemsOf schema).isUndefined = false →
        ∀ item ∈ items.zipIdx,
          check (itemsOf schema) (.json item.1) (path ++ js "[" ++ natText item.2 ++ js "]") = [] := by
  cases value with
  | array items =>
      simp only [JsValue.array.injEq, forall_eq']
      rw [itemIssues, ← itemsOf, Subject.value, asItems]
      cases (itemsOf schema).isUndefined with
      | true => exact iff_of_true rfl nofun
      | false =>
          simp only [Bool.false_eq_true, if_false, List.flatMap_eq_nil_iff, forall_true_left]
  | _ => exact iff_of_true rfl nofun

theorem branchIssues_eq_nil {subject : Subject} :
    branchIssues check schema subject path = [] ↔
      ∀ branches, branchesOf schema = some branches →
        ∃ branch ∈ branches, check branch subject path = [] := by
  rw [branchIssues, ← branchesOf]
  cases branchesOf schema with
  | none => exact iff_of_true rfl nofun
  | some branches =>
      simp only [Option.some.injEq, forall_eq']
      have some_passes : branches.any (fun branch => (check branch subject path).isEmpty) = true ↔
          ∃ branch ∈ branches, check branch subject path = [] := by
        rw [List.any_eq_true]
        simp only [List.isEmpty_iff]
      rw [← some_passes]
      split_ifs with passes
      · exact iff_of_true rfl passes
      · exact iff_of_false not_false passes

end Level

/-! ## The checker and the meaning -/

theorem isJson_member {object : Members} (json : (JsValue.object object).isJson = true)
    {key : JsString} {found : JsValue} (inside : (key, found) ∈ object) : found.isJson = true := by
  rw [JsValue.isJson, Bool.and_eq_true, membersAreJson_iff] at json
  exact json.2 _ inside

theorem isJson_item {items : List JsValue} (json : (JsValue.array items).isJson = true)
    {item : JsValue} (inside : item ∈ items) : item.isJson = true := by
  rw [JsValue.isJson, itemsAreJson_iff] at json
  exact json item inside

/-- `const` and `enum`, where the texts decide. -/
theorem valueIssues_eq_nil_iff {schema : Members} (json : (JsValue.object schema).isJson = true)
    {value : JsValue} (valueJson : value.isJson = true) (texts : TextsDecide schema value)
    (path : JsString) :
    valueIssues schema value path = [] ↔ ConstHolds schema value ∧ EnumHolds schema value := by
  rw [valueIssues_eq_nil json valueJson]
  refine and_congr (forall_congr' fun defined => ?_) (forall₂_congr fun choices found => ?_)
  · exact ⟨fun same => same ▸ .refl value, texts.constant defined⟩
  · exact ⟨fun among => ⟨value, among, .refl value⟩, texts.choices choices found⟩

theorem checkWithin_object (depth : Nat) (schema : Members) (subject : Subject) (path : JsString) :
    checkWithin (depth + 1) (.object schema) subject path =
      schemaIssues (checkWithin depth) schema subject path :=
  rfl

/-- A deep enough check finds nothing if and only if the value is valid. -/
theorem checkWithin_iff (depth : Nat) {schema value : JsValue} (path : JsString)
    (enough : nesting schema ≤ depth) (isSchema : IsSchema schema) (json : value.isJson = true)
    (decides : Decides schema value) :
    checkWithin depth schema (.json value) path = [] ↔ Valid schema value := by
  induction depth generalizing schema value path with
  | zero =>
      cases isSchema
      exact absurd enough (by simp [nesting])
  | succ depth inductionHypothesis =>
      obtain ⟨schemaJson, keywords, propertySchemas, itemSchema, branchSchemas⟩ := isSchema
      obtain ⟨texts, names, units, properties, items, branches⟩ := decides
      rename_i schema
      rw [nesting] at enough
      rw [checkWithin_object, schemaIssues]
      cases typed : typeIssue schema (.json value) path with
      | some issue =>
          refine iff_of_false (List.append_ne_nil_of_right_ne_nil _ (List.cons_ne_nil _ _)) ?_
          rintro ⟨constant, choices, type, -⟩
          rw [(typeIssue_eq_none json path).mpr type] at typed
          cases typed
      | none =>
          have type := (typeIssue_eq_none json path).mp typed
          -- what is below agrees, level by level
          have ofProperty : ∀ object, value = .object object → ∀ member ∈ propertiesOf schema,
              ∀ found, (member.1, found) ∈ object → ∀ path,
                checkWithin depth member.2 (.json found) path = [] ↔ Valid member.2 found := by
            rintro object rfl member among found inside path
            have smaller := nesting_property among
            exact inductionHypothesis path (by omega) (propertySchemas member among)
              (isJson_member json inside) (properties type object rfl member among found inside)
          have ofItem : ∀ list, value = .array list → (itemsOf schema).isUndefined = false →
              ∀ item ∈ list, ∀ path,
                checkWithin depth (itemsOf schema) (.json item) path = [] ↔
                  Valid (itemsOf schema) item := by
            rintro list rfl defined item inside path
            have smaller := nesting_lookup defined
            exact inductionHypothesis path (Nat.le_of_lt_succ (by rw [itemsOf]; omega))
              (itemSchema defined) (isJson_item json inside) (items type list rfl defined item inside)
          have ofBranch : ∀ list, branchesOf schema = some list → ∀ branch ∈ list,
              (checkWithin depth branch (.json value) path = [] ↔ Valid branch value) := by
            intro list found branch inside
            have smaller := nesting_branch found inside
            exact inductionHypothesis path (by omega) (branchSchemas list found branch inside) json
              (branches type list found branch inside)
          simp only [List.append_eq_nil_iff, Subject.value]
          rw [valueIssues_eq_nil_iff schemaJson json texts path,
            memberIssues_eq_nil json (names type), itemIssues_eq_nil,
            lengthIssues_eq_nil (units type), branchIssues_eq_nil]
          constructor
          · rintro ⟨⟨⟨⟨⟨constant, choices⟩, required, closed, members⟩, each⟩, length⟩, some⟩
            have propertiesValid : ∀ object, value = .object object →
                ∀ member ∈ propertiesOf schema, ∀ found, (member.1, found) ∈ object →
                  Valid member.2 found :=
              fun object same member among found inside =>
                (ofProperty object same member among found inside _).mp
                  (members object same member among found inside)
            have itemsValid : ∀ list, value = .array list → (itemsOf schema).isUndefined = false →
                ∀ item ∈ list, Valid (itemsOf schema) item := by
              intro list same defined item inside
              obtain ⟨index, here⟩ := List.mem_iff_getElem?.mp inside
              exact (ofItem list same defined item inside _).mp
                (each list same defined (item, index) (List.mem_zipIdx_iff_getElem?.mpr here))
            cases found : branchesOf schema with
            | none =>
                exact .object constant choices type required closed propertiesValid itemsValid length
                  .null (by rw [found]; nofun) (by rw [found]; nofun)
            | some list =>
                obtain ⟨branch, inside, passes⟩ := some list found
                refine .object constant choices type required closed propertiesValid itemsValid
                  length branch ?_ fun _ => (ofBranch list found branch inside).mp passes
                rintro other same
                rw [found] at same
                cases same
                exact inside
          · rintro ⟨constant, choices, -, required, closed, members, each, length, branch, chosen,
              matched⟩
            refine ⟨⟨⟨⟨⟨constant, choices⟩, required, closed, ?_⟩, ?_⟩, length⟩, ?_⟩
            · exact fun object same member among found inside =>
                (ofProperty object same member among found inside _).mpr
                  (members object same member among found inside)
            · intro list same defined item among
              have inside : item.1 ∈ list := by
                rw [List.mem_zipIdx_iff_getElem?] at among
                exact List.mem_of_getElem? among
              exact (ofItem list same defined item.1 inside _).mpr
                (each list same defined item.1 inside)
            · intro list found
              have inside := chosen list found
              exact ⟨branch, inside, (ofBranch list found branch inside).mpr
                (matched (by rw [found]; rfl))⟩

/-- `{ type: "object", required: ["a"], properties: { a: { type: "string" } } }`. -/
def namedText : Members :=
  [(js "type", .string (js "object")), (js "required", .array [.string (js "a")]),
    (js "properties", .object [(js "a", .object [(js "type", .string (js "string"))])])]

theorem isSchema_namedText : IsSchema (.object namedText) := by
  have text : IsSchema (.object [(js "type", .string (js "string"))]) :=
    .object (by decide)
      ⟨Or.inr (Or.inl ⟨js "string", by decide, rfl⟩), Or.inl rfl, Or.inl rfl, Or.inl rfl, Or.inl rfl,
        Or.inl rfl, Or.inl rfl⟩ nofun nofun nofun
  refine .object (by decide) ⟨Or.inr (Or.inl ⟨js "object", by decide, rfl⟩), Or.inr ⟨_, rfl⟩,
    Or.inr ⟨[js "a"], rfl⟩, Or.inl rfl, Or.inl rfl, Or.inl rfl, Or.inl rfl⟩ ?_ nofun nofun
  intro member among
  obtain rfl := List.mem_singleton.mp among
  exact text

end SpecAsCode.Harness
