import Mathlib.Data.List.Basic
import Mathlib.Data.List.Nodup

/-!
# Maps

A `Map` lists its entries in the order in which their keys were set first.
-/

namespace SpecAsCode.Js

/-- The entries of a map, no two with one key. -/
structure OrderedMap (Key Value : Type) where
  entries : List (Key × Value)
  distinct : (entries.map Prod.fst).Nodup

namespace OrderedMap

variable {Key Value : Type}

/-- `new Map()`. -/
def empty : OrderedMap Key Value :=
  ⟨[], List.nodup_nil⟩

variable [DecidableEq Key]

/-- `map.get(key)`. -/
def get? (map : OrderedMap Key Value) (key : Key) : Option Value :=
  (map.entries.find? fun entry => entry.1 = key).map Prod.snd

/-- The entries with one value replaced. -/
def replaceEntry (key : Key) (value : Value) (entries : List (Key × Value)) : List (Key × Value) :=
  entries.map fun entry => if entry.1 = key then (key, value) else entry

theorem keys_replaceEntry (key : Key) (value : Value) (entries : List (Key × Value)) :
    (replaceEntry key value entries).map Prod.fst = entries.map Prod.fst := by
  rw [replaceEntry, List.map_map]
  refine List.map_congr_left fun entry _ => ?_
  by_cases same : entry.1 = key
  · simp [same]
  · simp [same]

/-- `map.set(key, value)`: a key that is there keeps its place. -/
def set (map : OrderedMap Key Value) (key : Key) (value : Value) : OrderedMap Key Value :=
  if known : key ∈ map.entries.map Prod.fst then
    ⟨replaceEntry key value map.entries, by rw [keys_replaceEntry]; exact map.distinct⟩
  else
    ⟨map.entries ++ [(key, value)], by
      rw [List.map_append, List.map_singleton, ← List.concat_eq_append, List.nodup_concat]
      exact ⟨known, map.distinct⟩⟩

theorem entries_set_of_mem {map : OrderedMap Key Value} {key : Key} {value : Value}
    (known : key ∈ map.entries.map Prod.fst) :
    (map.set key value).entries = replaceEntry key value map.entries := by
  rw [set, dif_pos known]

theorem entries_set_of_not_mem {map : OrderedMap Key Value} {key : Key} {value : Value}
    (fresh : key ∉ map.entries.map Prod.fst) :
    (map.set key value).entries = map.entries ++ [(key, value)] := by
  rw [set, dif_neg fresh]

/-- `map.delete(key)`. -/
def delete (map : OrderedMap Key Value) (key : Key) : OrderedMap Key Value :=
  ⟨map.entries.filter fun entry => entry.1 ≠ key, map.distinct.sublist (List.filter_sublist.map _)⟩

@[simp]
theorem get?_empty (key : Key) : (empty : OrderedMap Key Value).get? key = none := rfl

theorem get?_eq_some {map : OrderedMap Key Value} {key : Key} {value : Value} :
    map.get? key = some value ↔ (key, value) ∈ map.entries := by
  obtain ⟨entries, distinct⟩ := map
  rw [get?]
  induction entries with
  | nil => simp
  | cons entry entries inductionHypothesis =>
      obtain ⟨other, otherValue⟩ := entry
      rw [List.map_cons, List.nodup_cons] at distinct
      by_cases same : other = key
      · have absent : (key, value) ∉ entries := fun member =>
          distinct.1 (List.mem_map.mpr ⟨(key, value), member, same.symm⟩)
        rw [List.find?_cons_of_pos (by simpa using same), List.mem_cons]
        simp [same, absent, eq_comm]
      · rw [List.find?_cons_of_neg (by simpa using same), inductionHypothesis distinct.2,
          List.mem_cons]
        simp [Ne.symm same]

theorem get?_eq_none {map : OrderedMap Key Value} {key : Key} :
    map.get? key = none ↔ key ∉ map.entries.map Prod.fst := by
  rw [Option.eq_none_iff_forall_ne_some]
  simp [get?_eq_some]

theorem get?_ext {map other : OrderedMap Key Value} {key otherKey : Key}
    (same : ∀ value, (key, value) ∈ map.entries ↔ (otherKey, value) ∈ other.entries) :
    map.get? key = other.get? otherKey := by
  refine Option.ext fun value => ?_
  rw [get?_eq_some, get?_eq_some, same]

@[simp]
theorem get?_set_self (map : OrderedMap Key Value) (key : Key) (value : Value) :
    (map.set key value).get? key = some value := by
  rw [get?_eq_some, set]
  split
  next known =>
    obtain ⟨entry, member, same⟩ := List.mem_map.mp known
    exact List.mem_map.mpr ⟨entry, member, by rw [if_pos same]⟩
  next => simp

theorem get?_set_ne (map : OrderedMap Key Value) {key other : Key} (different : other ≠ key)
    (value : Value) : (map.set key value).get? other = map.get? other := by
  refine get?_ext fun found => ?_
  rw [set]
  split
  next =>
    show (other, found) ∈ map.entries.map _ ↔ _
    rw [List.mem_map]
    constructor
    · rintro ⟨entry, member, same⟩
      split_ifs at same with here
      · exact absurd (congrArg Prod.fst same).symm different
      · rwa [← same]
    · intro member
      exact ⟨_, member, if_neg different⟩
  next => simp [different]

@[simp]
theorem get?_delete_self (map : OrderedMap Key Value) (key : Key) :
    (map.delete key).get? key = none := by
  rw [get?_eq_none, delete]
  simp

theorem get?_delete_ne (map : OrderedMap Key Value) {key other : Key} (different : other ≠ key) :
    (map.delete key).get? other = map.get? other := by
  refine get?_ext fun found => ?_
  rw [delete, List.mem_filter]
  simp [different]

theorem mem_keys_set {map : OrderedMap Key Value} {key other : Key} {value : Value} :
    other ∈ (map.set key value).entries.map Prod.fst ↔
      other = key ∨ other ∈ map.entries.map Prod.fst := by
  rw [set]
  split
  next known =>
    rw [keys_replaceEntry]
    constructor
    · exact Or.inr
    · rintro (rfl | member)
      · exact known
      · exact member
  next => simp [or_comm]

/-- A map that is set entry by entry. -/
def ofEntries (entries : List (Key × Value)) : OrderedMap Key Value :=
  entries.foldl (fun map entry => map.set entry.1 entry.2) empty

theorem mem_keys_ofEntries {entries : List (Key × Value)} {key : Key} :
    key ∈ (ofEntries entries).entries.map Prod.fst ↔ key ∈ entries.map Prod.fst := by
  have keys : ∀ map : OrderedMap Key Value,
      key ∈ (entries.foldl (fun map entry => map.set entry.1 entry.2) map).entries.map Prod.fst ↔
        key ∈ map.entries.map Prod.fst ∨ key ∈ entries.map Prod.fst := by
    induction entries with
    | nil => simp
    | cons entry entries inductionHypothesis =>
        intro map
        rw [List.foldl_cons, inductionHypothesis, mem_keys_set, List.map_cons, List.mem_cons]
        tauto
  rw [ofEntries, keys]
  simp [empty]

/-! ## Maps that are set in a loop -/

/-- A loop over entries with distinct keys writes the entry of each key. -/
theorem get?_foldl_set {Entry : Type} {write : Entry → Value} {entries : List (Key × Entry)}
    (distinct : (entries.map Prod.fst).Nodup) (map : OrderedMap Key Value) (key : Key) :
    (entries.foldl (fun map entry => map.set entry.1 (write entry.2)) map).get? key =
      (((entries.find? fun entry => entry.1 = key).map Prod.snd).map write).or (map.get? key) := by
  induction entries generalizing map with
  | nil => rfl
  | cons entry entries inductionHypothesis =>
      rw [List.map_cons, List.nodup_cons] at distinct
      rw [List.foldl_cons, inductionHypothesis distinct.2]
      by_cases same : entry.1 = key
      · have absent : (entries.find? fun entry => entry.1 = key) = none := by
          rw [List.find?_eq_none]
          intro other member
          simp only [decide_eq_true_eq]
          rintro rfl
          exact distinct.1 (same ▸ List.mem_map_of_mem member)
        rw [absent, List.find?_cons_of_pos (by simpa using same), same, get?_set_self]
        rfl
      · rw [List.find?_cons_of_neg (by simpa using same), get?_set_ne _ (Ne.symm same)]

/-- A loop that keeps what is there adds its value under the keys it admits. -/
theorem get?_foldl_adopt {adopt : OrderedMap Key Value → Key → OrderedMap Key Value}
    {admits : Key → Prop} [DecidablePred admits] {value : Value}
    (adopts : ∀ map key, adopt map key =
      if admits key ∧ map.get? key = none then map.set key value else map)
    (keys : List Key) (map : OrderedMap Key Value) (key : Key) :
    (keys.foldl adopt map).get? key =
      (map.get? key).or (if admits key ∧ key ∈ keys then some value else none) := by
  induction keys generalizing map with
  | nil => simp
  | cons first keys inductionHypothesis =>
      rw [List.foldl_cons, inductionHypothesis, adopts]
      by_cases same : key = first
      · subst same
        cases known : map.get? key with
        | some other => simp [known]
        | none =>
            by_cases admitted : admits key
            · simp [admitted]
            · simp [admitted, known]
      · have kept : (if admits first ∧ map.get? first = none then map.set first value
            else map).get? key = map.get? key := by
          split_ifs
          · exact get?_set_ne map same value
          · rfl
        rw [kept]
        simp [same]

/-- Where every source only adds, a key has the value of the first source that has it. -/
theorem get?_foldl_nearest {adoptFrom : OrderedMap Key Value → Value → OrderedMap Key Value}
    {key : Key} {has : Value → Prop} [DecidablePred has]
    (adds : ∀ map source, (adoptFrom map source).get? key =
      (map.get? key).or (if has source then some source else none))
    (sources : List Value) :
    (sources.foldl adoptFrom empty).get? key = sources.find? fun source => has source := by
  have general : ∀ map, (sources.foldl adoptFrom map).get? key =
      (map.get? key).or (sources.find? fun source => has source) := by
    induction sources with
    | nil => simp
    | cons source sources inductionHypothesis =>
        intro map
        rw [List.foldl_cons, inductionHypothesis, adds, Option.or_assoc]
        by_cases here : has source
        · simp [here]
        · simp [here]
  rw [general, get?_empty, Option.none_or]

/-- The last entry of a key is the one that is read. -/
theorem get?_ofEntries (entries : List (Key × Value)) (key : Key) :
    (ofEntries entries).get? key =
      (entries.reverse.find? fun entry => entry.1 = key).map Prod.snd := by
  have general : ∀ map : OrderedMap Key Value,
      (entries.foldl (fun map entry => map.set entry.1 entry.2) map).get? key =
        ((entries.reverse.find? fun entry => entry.1 = key).map Prod.snd).or (map.get? key) := by
    induction entries with
    | nil => exact fun map => rfl
    | cons entry entries inductionHypothesis =>
        intro map
        rw [List.foldl_cons, inductionHypothesis, List.reverse_cons, List.find?_append,
          List.find?_singleton, Option.map_or, Option.or_assoc]
        by_cases same : entry.1 = key
        · rw [same, get?_set_self, if_pos (by simp)]
          rfl
        · rw [get?_set_ne map (Ne.symm same), if_neg (by simpa using same)]
          rfl
  rw [ofEntries, general, get?_empty, Option.or_none]

/-- Where the values are a function of the keys, so is what is read. -/
theorem find?_of_function {entries : List (Key × Value)} {value : Key → Value}
    (function : ∀ entry ∈ entries, entry.2 = value entry.1) (key : Key) :
    (entries.find? fun entry => entry.1 = key).map Prod.snd =
      if key ∈ entries.map Prod.fst then some (value key) else none := by
  split_ifs with member
  · obtain ⟨entry, inside, same⟩ := List.mem_map.mp member
    cases found : entries.find? fun entry => entry.1 = key with
    | none => exact absurd same (by simpa using List.find?_eq_none.mp found entry inside)
    | some other =>
        have here : other.1 = key := by simpa using List.find?_some found
        rw [Option.map_some, function other (List.mem_of_find?_eq_some found), here]
  · rw [List.find?_eq_none.mpr, Option.map_none]
    intro entry inside
    simp only [decide_eq_true_eq]
    rintro rfl
    exact member (List.mem_map_of_mem inside)

end OrderedMap

end SpecAsCode.Js
