import SpecAsCode.Js.Value

/-!
# Own properties and their order

`Object.keys` lists the array indices of an object in ascending order and its other
keys in the order they were created.  `setProperty` is the creation or update of an
own data property; an object is the list of its members in enumeration order, and
`WellFormed` says that every object inside a value is such a list.
-/

namespace SpecAsCode.Js

/-- The number of a key that is an array index: a canonical decimal numeral below
`2 ^ 32 - 1`. -/
def arrayIndex (key : JsString) : Option Nat :=
  match key.mapM digitOf with
  | none => none
  | some [] => none
  | some (first :: rest) =>
      if first = 0 ∧ rest ≠ [] then
        none
      else if natOfDigits (first :: rest) < 4294967295 then
        some (natOfDigits (first :: rest))
      else
        none

/-- A new property `key` is listed before an existing property `name`. -/
def listedBefore (key name : JsString) : Bool :=
  match arrayIndex key, arrayIndex name with
  | some first, some second => first < second
  | some _, none => true
  | none, _ => false

theorem listedBefore_asymm {first second : JsString} (before : listedBefore first second = true) :
    listedBefore second first = false := by
  rw [listedBefore] at before ⊢
  cases firstIndex : arrayIndex first <;> cases secondIndex : arrayIndex second <;>
    simp only [firstIndex, secondIndex, decide_eq_true_eq, Bool.false_eq_true] at before ⊢
  simp only [decide_eq_false_iff_not]
  omega

/-- What is listed before a key is listed before every key that does not precede it. -/
theorem listedBefore_trans {first second third : JsString}
    (before : listedBefore first second = true) (follows : listedBefore third second = false) :
    listedBefore first third = true := by
  rw [listedBefore] at before follows ⊢
  cases firstIndex : arrayIndex first <;> cases secondIndex : arrayIndex second <;>
    cases thirdIndex : arrayIndex third <;>
    simp only [firstIndex, secondIndex, thirdIndex, decide_eq_true_eq, decide_eq_false_iff_not,
      Bool.false_eq_true, reduceCtorEq] at before follows ⊢
  omega

/-- Creation or update of an own data property. -/
def setProperty (key : JsString) (value : JsValue) : Members → Members
  | [] => [(key, value)]
  | (name, old) :: rest =>
      if name = key then
        (key, value) :: rest
      else if listedBefore key name then
        (key, value) :: (name, old) :: rest
      else
        (name, old) :: setProperty key value rest

/-- Two members in enumeration order. -/
def InOrder (first second : JsString × JsValue) : Prop :=
  listedBefore second.1 first.1 = false ∧ first.1 ≠ second.1

instance (first second : JsString × JsValue) : Decidable (InOrder first second) :=
  inferInstanceAs (Decidable (_ ∧ _))

/-- A list of members in enumeration order, each key once. -/
abbrev Enumerated (members : Members) : Prop :=
  members.Pairwise InOrder

/-- Two keys in enumeration order. -/
abbrev KeysInOrder (first second : JsString) : Prop :=
  listedBefore second first = false ∧ first ≠ second

theorem enumerated_of_keys {members : Members} {keys : List JsString}
    (same : members.map Prod.fst = keys) (ordered : keys.Pairwise KeysInOrder) :
    Enumerated members := by
  rw [← same, List.pairwise_map] at ordered
  exact ordered

theorem Enumerated.distinct {members : Members} (enumerated : Enumerated members) :
    (members.map Prod.fst).Nodup := by
  rw [List.Nodup, List.pairwise_map]
  exact enumerated.imp fun ordered => ordered.2

/-- A key that comes after every member is created at the end. -/
theorem setProperty_of_inOrder {key : JsString} {value : JsValue} {members : Members}
    (after : ∀ member ∈ members, InOrder member (key, value)) :
    setProperty key value members = members ++ [(key, value)] := by
  induction members with
  | nil => rfl
  | cons member rest inductionHypothesis =>
      obtain ⟨name, old⟩ := member
      have ordered := after (name, old) (List.mem_cons_self)
      rw [setProperty, if_neg ordered.2, if_neg (by simp [ordered.1]),
        inductionHypothesis fun other found => after other (List.mem_cons_of_mem _ found)]
      rfl

/-- Creating the members of an enumerated list one after another gives the list. -/
theorem foldl_setProperty {created members : Members} (enumerated : Enumerated (created ++ members)) :
    members.foldl (fun out member => setProperty member.1 member.2 out) created =
      created ++ members := by
  induction members generalizing created with
  | nil => simp
  | cons member rest inductionHypothesis =>
      have split := List.pairwise_append.mp enumerated
      rw [List.foldl_cons,
        setProperty_of_inOrder fun other found => split.2.2 other found member (List.mem_cons_self),
        inductionHypothesis (by simpa using enumerated)]
      simp

theorem lookup_setProperty_self (key : JsString) (value : JsValue) (members : Members) :
    lookup key (setProperty key value members) = value := by
  induction members with
  | nil => exact lookup_cons_self key value []
  | cons member rest inductionHypothesis =>
      obtain ⟨name, old⟩ := member
      by_cases same : name = key
      · rw [setProperty, if_pos same]
        exact lookup_cons_self key value rest
      · rw [setProperty, if_neg same]
        split
        · exact lookup_cons_self key value _
        · rw [lookup_cons_ne old _ same]
          exact inductionHypothesis

theorem lookup_setProperty_ne {key other : JsString} (value : JsValue) (members : Members)
    (different : key ≠ other) :
    lookup other (setProperty key value members) = lookup other members := by
  induction members with
  | nil => exact lookup_cons_ne value [] different
  | cons member rest inductionHypothesis =>
      obtain ⟨name, old⟩ := member
      by_cases same : name = key
      · subst same
        rw [setProperty, if_pos rfl, lookup_cons_ne value rest different,
          lookup_cons_ne old rest different]
      · rw [setProperty, if_neg same]
        split
        · exact lookup_cons_ne value _ different
        · by_cases found : name = other
          · subst found
            rw [lookup_cons_self, lookup_cons_self]
          · rw [lookup_cons_ne old _ found, lookup_cons_ne old _ found]
            exact inductionHypothesis

theorem mem_setProperty {key : JsString} {value : JsValue} {members : Members}
    {member : JsString × JsValue} (found : member ∈ setProperty key value members) :
    member = (key, value) ∨ member ∈ members := by
  induction members with
  | nil => exact Or.inl (by simpa [setProperty] using found)
  | cons head rest inductionHypothesis =>
      obtain ⟨name, old⟩ := head
      rw [setProperty] at found
      split at found
      · rcases List.mem_cons.mp found with rfl | later
        · exact Or.inl rfl
        · exact Or.inr (List.mem_cons_of_mem _ later)
      · split at found
        · rcases List.mem_cons.mp found with rfl | later
          · exact Or.inl rfl
          · exact Or.inr later
        · rcases List.mem_cons.mp found with rfl | later
          · exact Or.inr (List.mem_cons_self)
          · rcases inductionHypothesis later with rfl | older
            · exact Or.inl rfl
            · exact Or.inr (List.mem_cons_of_mem _ older)

theorem mem_keys_setProperty {key other : JsString} {value : JsValue} {members : Members} :
    other ∈ (setProperty key value members).map Prod.fst ↔
      other = key ∨ other ∈ members.map Prod.fst := by
  induction members with
  | nil => simp [setProperty]
  | cons head rest inductionHypothesis =>
      obtain ⟨name, old⟩ := head
      rw [setProperty]
      split_ifs with same before
      · simp [same]
      · simp
      · simp only [List.map_cons, List.mem_cons, inductionHypothesis]
        exact or_left_comm

/-- Creating or updating a property keeps the enumeration order. -/
theorem Enumerated.setProperty {members : Members} (enumerated : Enumerated members)
    (key : JsString) (value : JsValue) : Enumerated (setProperty key value members) := by
  induction members with
  | nil => simp [SpecAsCode.Js.setProperty, Enumerated]
  | cons head rest inductionHypothesis =>
      obtain ⟨name, old⟩ := head
      have parts := List.pairwise_cons.mp enumerated
      rw [SpecAsCode.Js.setProperty]
      split_ifs with same before
      · subst same
        exact List.pairwise_cons.mpr ⟨fun other later => parts.1 other later, parts.2⟩
      · refine List.pairwise_cons.mpr ⟨?_, enumerated⟩
        intro other found
        rcases List.mem_cons.mp found with rfl | later
        · exact ⟨listedBefore_asymm before, Ne.symm same⟩
        · have follows := parts.1 other later
          refine ⟨listedBefore_asymm (listedBefore_trans before follows.1), ?_⟩
          rintro rfl
          exact absurd follows.1 (by simp [before])
      · refine List.pairwise_cons.mpr ⟨?_, inductionHypothesis parts.2⟩
        intro other found
        rcases mem_setProperty found with rfl | later
        · exact ⟨by simpa using before, same⟩
        · exact parts.1 other later

/-! ## Induction over values -/

/-- Induction over a value through the members of its arrays and objects. -/
@[elab_as_elim]
theorem JsValue.induction {motive : JsValue → Prop}
    (undefined : motive .undefined) (null : motive .null)
    (bool : ∀ value, motive (.bool value)) (number : ∀ value, motive (.number value))
    (string : ∀ value, motive (.string value))
    (array : ∀ items : List JsValue, (∀ item ∈ items, motive item) → motive (.array items))
    (object : ∀ members : Members, (∀ member ∈ members, motive member.2) →
      motive (.object members)) :
    ∀ value, motive value := by
  intro value
  refine @JsValue.rec motive (fun items => ∀ item ∈ items, motive item)
    (fun members => ∀ member ∈ members, motive member.2) (fun member => motive member.2)
    undefined null bool number string array object ?_ ?_ ?_ ?_ ?_ value
  · simp
  · intro head tail headHolds tailHolds item member
    rcases List.mem_cons.mp member with rfl | later
    · exact headHolds
    · exact tailHolds item later
  · simp
  · intro head tail headHolds tailHolds item member
    rcases List.mem_cons.mp member with rfl | later
    · exact headHolds
    · exact tailHolds item later
  · intro key value holds
    exact holds

mutual

/-- Every object inside the value is in enumeration order, and every number is
finite and every value defined: the values a JSON text denotes. -/
def JsValue.isJson : JsValue → Bool
  | .undefined => false
  | .null => true
  | .bool _ => true
  | .number value => value.isFinite
  | .string _ => true
  | .array items => itemsAreJson items
  | .object members => decide (Enumerated members) && membersAreJson members

def itemsAreJson : List JsValue → Bool
  | [] => true
  | item :: rest => item.isJson && itemsAreJson rest

def membersAreJson : Members → Bool
  | [] => true
  | (_, value) :: rest => value.isJson && membersAreJson rest

/-- Every object inside the value is in enumeration order. -/
def JsValue.isWellFormed : JsValue → Bool
  | .undefined => true
  | .null => true
  | .bool _ => true
  | .number _ => true
  | .string _ => true
  | .array items => itemsAreWellFormed items
  | .object members => decide (Enumerated members) && membersAreWellFormed members

def itemsAreWellFormed : List JsValue → Bool
  | [] => true
  | item :: rest => item.isWellFormed && itemsAreWellFormed rest

def membersAreWellFormed : Members → Bool
  | [] => true
  | (_, value) :: rest => value.isWellFormed && membersAreWellFormed rest

end

end SpecAsCode.Js
