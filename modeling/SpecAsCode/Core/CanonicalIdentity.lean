import SpecAsCode.Core.Canonical
import Mathlib.Data.List.Forall2

/-!
# What canonical JSON identifies

Two values have one canonical text exactly when they are logically equal after their
properties named `__proto__` are taken away.
-/

namespace SpecAsCode.Core

open SpecAsCode.Js

/-! ## Sorted entries -/

section Sorted

variable {α β : Type}

/-- The keys of the entries increase strictly. -/
abbrev SortedByKey (entries : List (JsString × α)) : Prop :=
  entries.Pairwise fun first second => first.1 < second.1

theorem SortedByKey.distinct {entries : List (JsString × α)} (sorted : SortedByKey entries) :
    (entries.map Prod.fst).Nodup := by
  rw [List.Nodup, List.pairwise_map]
  exact sorted.imp fun less => ne_of_lt less

theorem mem_sortEntries {entries : List (JsString × α)} {entry : JsString × α} :
    entry ∈ sortEntries entries ↔ entry ∈ entries :=
  List.mem_insertionSort _

theorem sortedByKey_sortEntries {entries : List (JsString × α)}
    (distinct : (entries.map Prod.fst).Nodup) : SortedByKey (sortEntries entries) := by
  have total : Std.Total (fun first second : JsString × α => first.1 ≤ second.1) :=
    ⟨fun first second => le_total first.1 second.1⟩
  have trans : IsTrans (JsString × α) (fun first second => first.1 ≤ second.1) :=
    ⟨fun _ _ _ less next => le_trans less next⟩
  have ascending := List.pairwise_insertionSort
    (fun first second : JsString × α => first.1 ≤ second.1) entries
  have nodup : ((sortEntries entries).map Prod.fst).Nodup :=
    ((List.perm_insertionSort _ entries).map Prod.fst).nodup_iff.mpr distinct
  rw [List.Nodup, List.pairwise_map] at nodup
  exact ascending.imp₂ (fun _ _ less different => lt_of_le_of_ne less different) nodup

/-- Two sorted lists with the same entries are one list. -/
theorem SortedByKey.ext {first second : List (JsString × α)} (sorted : SortedByKey first)
    (otherSorted : SortedByKey second) (same : ∀ entry, entry ∈ first ↔ entry ∈ second) :
    first = second := by
  have nodup : ∀ {entries : List (JsString × α)}, SortedByKey entries → entries.Nodup :=
    fun sorted => List.Nodup.of_map Prod.fst sorted.distinct
  have permuted := (List.perm_ext_iff_of_nodup (nodup sorted) (nodup otherSorted)).mpr same
  exact permuted.eq_of_pairwise
    (fun _ _ _ _ less greater => absurd less (not_lt_of_gt greater)) sorted otherSorted

end Sorted

/-! ## Building an object -/

/-- The object that the creation of properties, one after another, builds. -/
def createAll (copies out : Members) : Members :=
  copies.foldl (fun out member => setProperty member.1 member.2 out) out

theorem lookup_createAll (key : JsString) (copies out : Members)
    (distinct : (copies.map Prod.fst).Nodup) :
    lookup key (createAll copies out) =
      if key ∈ copies.map Prod.fst then lookup key copies else lookup key out := by
  induction copies generalizing out with
  | nil => simp [createAll]
  | cons copy copies inductionHypothesis =>
      obtain ⟨name, value⟩ := copy
      simp only [List.map_cons, List.nodup_cons] at distinct
      have unfolded : createAll ((name, value) :: copies) out =
          createAll copies (setProperty name value out) := rfl
      rw [unfolded, inductionHypothesis _ distinct.2]
      by_cases same : name = key
      · subst same
        rw [if_neg distinct.1, lookup_setProperty_self, if_pos (by simp), lookup_cons_self]
      · have keys : key ∈ ((name, value) :: copies).map Prod.fst ↔ key ∈ copies.map Prod.fst := by
          rw [List.map_cons, List.mem_cons, or_iff_right (Ne.symm same)]
        rw [lookup_setProperty_ne value out same, lookup_cons_ne value copies same]
        simp only [keys]

theorem enumerated_createAll (copies : Members) {out : Members} (enumerated : Enumerated out) :
    Enumerated (createAll copies out) := by
  induction copies generalizing out with
  | nil => exact enumerated
  | cons copy copies inductionHypothesis =>
      exact inductionHypothesis (enumerated.setProperty copy.1 copy.2)

theorem mem_createAll {copies out : Members} {member : JsString × JsValue}
    (found : member ∈ createAll copies out) : member ∈ copies ∨ member ∈ out := by
  induction copies generalizing out with
  | nil => exact Or.inr found
  | cons copy copies inductionHypothesis =>
      rcases @inductionHypothesis (setProperty copy.1 copy.2 out) found with later | created
      · exact Or.inl (List.mem_cons_of_mem _ later)
      · rcases mem_setProperty created with rfl | older
        · exact Or.inl List.mem_cons_self
        · exact Or.inr older

/-- Assignments that all succeed create the properties not named `__proto__`. -/
theorem assignAll_ok {entries : List (JsString × Except CanonicalError JsValue)}
    {filled : Members} (succeeds : assignAll entries = .ok filled) :
    ∃ copies : Members, entries = copies.map (fun copy => (copy.1, .ok copy.2)) ∧
      filled = createAll (copies.filter fun copy => copy.1 ≠ protoKey) [] := by
  have general : ∀ (entries : List (JsString × Except CanonicalError JsValue)) (out : Members),
      entries.foldlM (fun out entry => entry.2.map (assignProperty out entry.1)) out = .ok filled →
      ∃ copies : Members, entries = copies.map (fun copy => (copy.1, .ok copy.2)) ∧
        filled = createAll (copies.filter fun copy => copy.1 ≠ protoKey) out := by
    intro entries
    induction entries with
    | nil =>
        intro out succeeds
        exact ⟨[], rfl, by cases succeeds; rfl⟩
    | cons entry entries inductionHypothesis =>
        intro out succeeds
        obtain ⟨key, result⟩ := entry
        cases result with
        | error error => cases succeeds
        | ok copy =>
            obtain ⟨copies, shape, built⟩ := inductionHypothesis _ succeeds
            refine ⟨(key, copy) :: copies, by rw [shape]; rfl, ?_⟩
            by_cases proto : key = protoKey
            · simpa [assignProperty, proto] using built
            · simpa [assignProperty, proto, createAll] using built
  exact general entries [] succeeds

/-- Assignments of values that are there succeed. -/
theorem assignAll_values (copies : Members) :
    assignAll (copies.map fun copy => (copy.1, .ok copy.2)) =
      .ok (createAll (copies.filter fun copy => copy.1 ≠ protoKey) []) := by
  have general : ∀ (copies out : Members),
      (copies.map fun copy => (copy.1, (.ok copy.2 : Except CanonicalError JsValue))).foldlM
          (fun out entry => entry.2.map (assignProperty out entry.1)) out =
        .ok (createAll (copies.filter fun copy => copy.1 ≠ protoKey) out) := by
    intro copies
    induction copies with
    | nil => intro out; rfl
    | cons copy copies inductionHypothesis =>
        intro out
        refine (inductionHypothesis (assignProperty out copy.1 copy.2)).trans ?_
        by_cases proto : copy.1 = protoKey
        · rw [List.filter_cons_of_neg (by simp [proto]), assignProperty, if_pos proto]
        · rw [List.filter_cons_of_pos (by simp [proto]), assignProperty, if_neg proto]
          rfl
  exact general copies []

/-! ## The copy of a value -/

theorem membersAreWellFormed_iff (members : Members) :
    membersAreWellFormed members = true ↔ ∀ member ∈ members, member.2.isWellFormed = true := by
  induction members with
  | nil => simp [membersAreWellFormed]
  | cons member rest inductionHypothesis =>
      obtain ⟨key, value⟩ := member
      simp [membersAreWellFormed, inductionHypothesis]

theorem itemsAreWellFormed_iff (items : List JsValue) :
    itemsAreWellFormed items = true ↔ ∀ item ∈ items, item.isWellFormed = true := by
  induction items with
  | nil => simp [itemsAreWellFormed]
  | cons item rest inductionHypothesis => simp [itemsAreWellFormed, inductionHypothesis]

/-- Every item of a copied array is copied, in its place. -/
theorem transformItems_ok {path : List JsString} {index : Nat} {items copies : List JsValue}
    (succeeds : transformItems path index items = .ok copies) :
    List.Forall₂ (fun item copy => ∃ inner, transformInner inner item = .ok copy) items copies := by
  induction items generalizing index copies with
  | nil => cases succeeds; exact .nil
  | cons item rest inductionHypothesis =>
      rw [transformItems] at succeeds
      split at succeeds
      next => cases succeeds
      next =>
        cases head : transformInner (path ++ [natText index]) item with
        | error error => rw [head] at succeeds; cases succeeds
        | ok copy =>
            cases tail : transformItems path (index + 1) rest with
            | error error => rw [head, tail] at succeeds; cases succeeds
            | ok others =>
                rw [head, tail] at succeeds
                cases succeeds
                exact .cons ⟨_, head⟩ (inductionHypothesis tail)

theorem mem_transformMembers {path : List JsString} {members : Members} {key : JsString}
    {result : Except CanonicalError JsValue} :
    (key, result) ∈ transformMembers path members ↔
      ∃ value, (key, value) ∈ members ∧ value.isUndefined = false ∧
        result = transformInner (path ++ [key]) value := by
  induction members with
  | nil => simp [transformMembers]
  | cons member rest inductionHypothesis =>
      obtain ⟨name, value⟩ := member
      rw [transformMembers]
      cases undefined : value.isUndefined with
      | true =>
          rw [if_pos rfl, inductionHypothesis]
          constructor
          · rintro ⟨other, found, defined, equal⟩
            exact ⟨other, List.mem_cons_of_mem _ found, defined, equal⟩
          · rintro ⟨other, found, defined, equal⟩
            rcases List.mem_cons.mp found with same | later
            · cases same
              rw [undefined] at defined
              cases defined
            · exact ⟨other, later, defined, equal⟩
      | false =>
          rw [if_neg (by simp), List.mem_cons, inductionHypothesis]
          constructor
          · rintro (same | ⟨other, found, defined, equal⟩)
            · cases same
              exact ⟨value, List.mem_cons_self, undefined, rfl⟩
            · exact ⟨other, List.mem_cons_of_mem _ found, defined, equal⟩
          · rintro ⟨other, found, defined, equal⟩
            rcases List.mem_cons.mp found with same | later
            · cases same
              exact Or.inl (by rw [equal])
            · exact Or.inr ⟨other, later, defined, equal⟩

theorem transformMembers_keys (path : List JsString) (members : Members) :
    ((transformMembers path members).map Prod.fst).Sublist (members.map Prod.fst) := by
  induction members with
  | nil => exact .slnil
  | cons member rest inductionHypothesis =>
      obtain ⟨name, value⟩ := member
      rw [transformMembers]
      split
      · exact inductionHypothesis.cons _
      · exact inductionHypothesis.cons_cons _

/-- The properties the copy of an object is built from: the defined properties not
named `__proto__`, copied and sorted. -/
structure Copies (path : List JsString) (members copies : Members) : Prop where
  sorted : SortedByKey copies
  source : ∀ key copy, (key, copy) ∈ copies → key ≠ protoKey ∧
    ∃ value, (key, value) ∈ members ∧ value.isUndefined = false ∧
      transformInner (path ++ [key]) value = .ok copy
  complete : ∀ key value, (key, value) ∈ members → value.isUndefined = false → key ≠ protoKey →
    ∃ copy, transformInner (path ++ [key]) value = .ok copy ∧ (key, copy) ∈ copies

theorem transformInner_object {path : List JsString} {members : Members} {copy : JsValue}
    (enumerated : Enumerated members)
    (succeeds : transformInner path (.object members) = .ok copy) :
    ∃ copies, Copies path members copies ∧ copy = .object (createAll copies []) := by
  rw [transformInner] at succeeds
  cases filled : assignAll (sortEntries (transformMembers path members)) with
  | error error => rw [filled] at succeeds; cases succeeds
  | ok out =>
      rw [filled] at succeeds
      cases succeeds
      obtain ⟨copies, shape, built⟩ := assignAll_ok filled
      have sorted : SortedByKey copies := by
        have entriesSorted := sortedByKey_sortEntries
          ((transformMembers_keys path members).nodup enumerated.distinct)
        rw [shape, SortedByKey, List.pairwise_map] at entriesSorted
        exact entriesSorted
      have mem : ∀ key copy, (key, copy) ∈ copies ↔
          (key, Except.ok copy) ∈ transformMembers path members := by
        intro key copy
        rw [← @mem_sortEntries _ (transformMembers path members), shape, List.mem_map]
        constructor
        · intro found
          exact ⟨(key, copy), found, rfl⟩
        · rintro ⟨⟨name, other⟩, found, same⟩
          cases same
          exact found
      refine ⟨copies.filter fun copy => copy.1 ≠ protoKey, ⟨sorted.filter _, ?_, ?_⟩, by rw [built]⟩
      · intro key copy found
        obtain ⟨found, different⟩ := List.mem_filter.mp found
        obtain ⟨value, member, defined, equal⟩ :=
          mem_transformMembers.mp ((mem key copy).mp found)
        exact ⟨by simpa using different, value, member, defined, equal.symm⟩
      · intro key value member defined different
        have entry : (key, transformInner (path ++ [key]) value) ∈
            sortEntries (transformMembers path members) :=
          mem_sortEntries.mpr (mem_transformMembers.mpr ⟨value, member, defined, rfl⟩)
        rw [shape, List.mem_map] at entry
        obtain ⟨⟨name, copy⟩, found, same⟩ := entry
        simp only [Prod.mk.injEq] at same
        obtain ⟨rfl, equal⟩ := same
        exact ⟨copy, equal.symm, List.mem_filter.mpr ⟨found, by simpa using different⟩⟩

theorem Copies.lookup_createAll {path : List JsString} {members copies : Members}
    (taken : Copies path members copies) (key : JsString) :
    lookup key (createAll copies []) = lookup key copies := by
  rw [SpecAsCode.Core.lookup_createAll key copies [] taken.sorted.distinct]
  split
  next => rfl
  next absent => exact (lookup_eq_undefined_of_not_mem absent).symm

/-- A copy is a value a JSON text denotes, and it is logically equal to the source
without its properties named `__proto__`. -/
theorem transformInner_sound {value : JsValue} : ∀ {path : List JsString} {copy : JsValue},
    value.isWellFormed = true → transformInner path value = .ok copy →
      copy.isJson = true ∧ LogicallyEqual copy (withoutProto value) := by
  induction value using JsValue.induction with
  | undefined => intro path copy _ succeeds; cases succeeds
  | null => intro path copy _ succeeds; cases succeeds; exact ⟨rfl, .null⟩
  | bool value => intro path copy _ succeeds; cases succeeds; exact ⟨rfl, .bool value⟩
  | string value => intro path copy _ succeeds; cases succeeds; exact ⟨rfl, .string value⟩
  | number value =>
      intro path copy _ succeeds
      rw [transformInner] at succeeds
      split at succeeds
      next finite => cases succeeds; exact ⟨finite, .number value⟩
      next => cases succeeds
  | array items inductionHypothesis =>
      intro path copy wellFormed succeeds
      rw [JsValue.isWellFormed, itemsAreWellFormed_iff] at wellFormed
      rw [transformInner] at succeeds
      cases result : transformItems path 0 items with
      | error error => rw [result] at succeeds; cases succeeds
      | ok copies =>
          rw [result] at succeeds
          cases succeeds
          obtain ⟨length, each⟩ := List.forall₂_iff_get.mp (transformItems_ok result)
          have item : ∀ (index : Nat) (inside : index < items.length)
              (copied : index < copies.length), copies[index].isJson = true ∧
                LogicallyEqual copies[index] (withoutProto items[index]) := by
            intro index inside copied
            obtain ⟨inner, equal⟩ := each index inside copied
            exact inductionHypothesis _ (List.getElem_mem inside)
              (wellFormed _ (List.getElem_mem inside)) equal
          constructor
          · rw [JsValue.isJson, itemsAreJson_iff]
            intro copy member
            obtain ⟨index, copied, rfl⟩ := List.getElem_of_mem member
            exact (item index (by omega) copied).1
          · rw [withoutProto, itemsWithoutProto_eq_map]
            refine .array (by simp [length]) fun index => ?_
            by_cases inside : index < items.length
            · rw [List.getD_eq_getElem _ _ (by omega), List.getD_eq_getElem _ _ (by simpa),
                List.getElem_map]
              exact (item index inside (by omega)).2
            · rw [List.getD_eq_default _ _ (by omega),
                List.getD_eq_default _ _ (by simpa using inside)]
              exact .undefined
  | object members inductionHypothesis =>
      intro path copy wellFormed succeeds
      rw [JsValue.isWellFormed, Bool.and_eq_true, decide_eq_true_eq,
        membersAreWellFormed_iff] at wellFormed
      obtain ⟨enumerated, wellFormed⟩ := wellFormed
      obtain ⟨copies, taken, rfl⟩ := transformInner_object enumerated succeeds
      constructor
      · rw [JsValue.isJson, Bool.and_eq_true, decide_eq_true_eq, membersAreJson_iff]
        refine ⟨enumerated_createAll copies List.Pairwise.nil, ?_⟩
        rintro ⟨key, copy⟩ member
        have found := (mem_createAll member).resolve_right (by simp)
        obtain ⟨-, value, source, -, equal⟩ := taken.source key copy found
        exact (inductionHypothesis _ source (wellFormed _ source) equal).1
      · rw [withoutProto]
        refine .object fun key => ?_
        rw [taken.lookup_createAll, lookup_membersWithoutProto]
        rcases lookup_mem_or_undefined key copies with found | absent
        · obtain ⟨different, value, source, -, equal⟩ := taken.source key _ found
          rw [if_neg different, lookup_eq_of_mem enumerated.distinct source]
          exact (inductionHypothesis _ source (wellFormed _ source) equal).2
        · rw [absent]
          split
          next => exact .undefined
          next different =>
            rcases lookup_mem_or_undefined key members with source | missing
            · cases undefined : (lookup key members).isUndefined with
              | true =>
                  cases value : lookup key members <;> rw [value] at undefined <;>
                    first | exact .undefined | cases undefined
              | false =>
                  obtain ⟨copy, equal, found⟩ := taken.complete key _ source undefined different
                  rw [lookup_eq_of_mem taken.sorted.distinct found] at absent
                  subst absent
                  have json := (inductionHypothesis _ source (wellFormed _ source) equal).1
                  cases json
            · rw [missing]
              exact .undefined

theorem LogicallyEqual.isUndefined {first second : JsValue}
    (equal : LogicallyEqual first second) : first.isUndefined = second.isUndefined := by
  cases equal <;> rfl

/-- A property copied for one of two equal objects is copied for the other, with the
same copy. -/
private theorem Copies.subset {path otherPath : List JsString}
    {members others copies otherCopies : Members}
    (taken : Copies path members copies) (otherTaken : Copies otherPath others otherCopies)
    (enumerated : Enumerated members)
    (equal : ∀ key, key ≠ protoKey →
      LogicallyEqual (withoutProto (lookup key members)) (withoutProto (lookup key others)))
    (agree : ∀ key value other copy otherCopy, (key, value) ∈ members → (key, other) ∈ others →
      LogicallyEqual (withoutProto value) (withoutProto other) →
      transformInner (path ++ [key]) value = .ok copy →
      transformInner (otherPath ++ [key]) other = .ok otherCopy → copy = otherCopy) :
    ∀ entry ∈ copies, entry ∈ otherCopies := by
  rintro ⟨key, copy⟩ member
  obtain ⟨different, value, source, defined, copied⟩ := taken.source key copy member
  have valueEqual := equal key different
  rw [lookup_eq_of_mem enumerated.distinct source] at valueEqual
  have otherDefined : (lookup key others).isUndefined = false := by
    rw [← isUndefined_withoutProto, ← valueEqual.isUndefined, isUndefined_withoutProto, defined]
  rcases lookup_mem_or_undefined key others with otherSource | absent
  · obtain ⟨otherCopy, otherCopied, found⟩ :=
      otherTaken.complete key _ otherSource otherDefined different
    rw [agree key value _ copy otherCopy source otherSource valueEqual copied otherCopied]
    exact found
  · rw [absent] at otherDefined
    cases otherDefined

/-- Values that are logically equal without their properties named `__proto__` have the
same copy. -/
theorem transformInner_unique {first : JsValue} :
    ∀ {second : JsValue} {path otherPath : List JsString} {copy other : JsValue},
      first.isWellFormed = true → second.isWellFormed = true →
      LogicallyEqual (withoutProto first) (withoutProto second) →
      transformInner path first = .ok copy → transformInner otherPath second = .ok other →
      copy = other := by
  induction first using JsValue.induction with
  | undefined => intro _ _ _ _ _ _ _ _ succeeds; cases succeeds
  | null =>
      intro second _ _ _ _ _ _ equal succeeds otherSucceeds
      cases second <;> cases equal
      cases succeeds
      cases otherSucceeds
      rfl
  | bool value =>
      intro second _ _ _ _ _ _ equal succeeds otherSucceeds
      cases second <;> cases equal
      cases succeeds
      cases otherSucceeds
      rfl
  | string value =>
      intro second _ _ _ _ _ _ equal succeeds otherSucceeds
      cases second <;> cases equal
      cases succeeds
      cases otherSucceeds
      rfl
  | number value =>
      intro second path otherPath copy other _ _ equal succeeds otherSucceeds
      cases second <;> cases equal
      rw [transformInner] at succeeds otherSucceeds
      split at succeeds
      next finite =>
        rw [if_pos finite] at otherSucceeds
        cases succeeds
        cases otherSucceeds
        rfl
      next => cases succeeds
  | array items inductionHypothesis =>
      intro second path otherPath copy other wellFormed otherWellFormed equal succeeds otherSucceeds
      cases second with
      | array others =>
          rw [JsValue.isWellFormed, itemsAreWellFormed_iff] at wellFormed otherWellFormed
          rw [transformInner] at succeeds otherSucceeds
          cases result : transformItems path 0 items with
          | error error => rw [result] at succeeds; cases succeeds
          | ok copies =>
              cases otherResult : transformItems otherPath 0 others with
              | error error => rw [otherResult] at otherSucceeds; cases otherSucceeds
              | ok otherCopies =>
                  rw [result] at succeeds
                  rw [otherResult] at otherSucceeds
                  cases succeeds
                  cases otherSucceeds
                  simp only [withoutProto, itemsWithoutProto_eq_map] at equal
                  cases equal with
                  | array length each =>
                      simp only [List.length_map] at length
                      have copied := List.forall₂_iff_get.mp (transformItems_ok result)
                      have otherCopied := List.forall₂_iff_get.mp (transformItems_ok otherResult)
                      have copiedLength := copied.1
                      have otherLength := otherCopied.1
                      congr 1
                      refine List.ext_getElem (by omega) fun index inside otherInside => ?_
                      obtain ⟨inner, copyEqual⟩ := copied.2 index (by omega) inside
                      obtain ⟨otherInner, otherEqual⟩ := otherCopied.2 index (by omega) otherInside
                      have itemEqual := each index
                      rw [List.getD_eq_getElem _ _ (by rw [List.length_map]; omega),
                        List.getD_eq_getElem _ _ (by rw [List.length_map]; omega),
                        List.getElem_map, List.getElem_map] at itemEqual
                      exact inductionHypothesis _ (List.getElem_mem _)
                        (wellFormed _ (List.getElem_mem _)) (otherWellFormed _ (List.getElem_mem _))
                        itemEqual copyEqual otherEqual
      | _ => cases equal
  | object members inductionHypothesis =>
      intro second path otherPath copy other wellFormed otherWellFormed equal succeeds otherSucceeds
      cases second with
      | object others =>
          rw [JsValue.isWellFormed, Bool.and_eq_true, decide_eq_true_eq,
            membersAreWellFormed_iff] at wellFormed otherWellFormed
          obtain ⟨copies, taken, rfl⟩ := transformInner_object wellFormed.1 succeeds
          obtain ⟨otherCopies, otherTaken, rfl⟩ :=
            transformInner_object otherWellFormed.1 otherSucceeds
          simp only [withoutProto] at equal
          cases equal with
          | object properties =>
              have valueEqual : ∀ key, key ≠ protoKey → LogicallyEqual
                  (withoutProto (lookup key members)) (withoutProto (lookup key others)) := by
                intro key different
                have property := properties key
                rwa [lookup_membersWithoutProto, lookup_membersWithoutProto, if_neg different,
                  if_neg different] at property
              have agree : ∀ key value other copy otherCopy, (key, value) ∈ members →
                  (key, other) ∈ others →
                  LogicallyEqual (withoutProto value) (withoutProto other) →
                  transformInner (path ++ [key]) value = .ok copy →
                  transformInner (otherPath ++ [key]) other = .ok otherCopy →
                  copy = otherCopy := by
                intro key value other copy otherCopy source otherSource
                exact inductionHypothesis _ source (wellFormed.2 _ source)
                  (otherWellFormed.2 _ otherSource)
              have sameCopies : copies = otherCopies := by
                refine taken.sorted.ext otherTaken.sorted fun entry => ⟨?_, ?_⟩
                · exact taken.subset otherTaken wellFormed.1 valueEqual agree entry
                · refine otherTaken.subset taken otherWellFormed.1
                    (fun key different => (valueEqual key different).symm) ?_ entry
                  intro key value other copy otherCopy source otherSource equal succeeds succeedsToo
                  exact (agree key other value otherCopy copy otherSource source equal.symm
                    succeedsToo succeeds).symm
              rw [sameCopies]
      | _ => cases equal

/-! ## Canonical texts -/

/-- A value whose objects are in enumeration order. -/
abbrev JsonLike := { value : JsValue // value.isWellFormed = true }

/-- Canonicalization succeeds on a value. -/
def Canonicalizable (value : JsonLike) : Prop :=
  ∃ copy, canonicalize value.val = .ok copy

/-- The canonical text identifies a value up to logical equality of what is left of it
without properties named `__proto__`. -/
theorem canonicalJson_eq_iff {first second : JsonLike} (succeeds : Canonicalizable first)
    (otherSucceeds : Canonicalizable second) :
    canonicalJson first.val = canonicalJson second.val ↔
      LogicallyEqual (withoutProto first.val) (withoutProto second.val) := by
  obtain ⟨copy, copied⟩ := succeeds
  obtain ⟨other, otherCopied⟩ := otherSucceeds
  have sound := transformInner_sound first.property copied
  have otherSound := transformInner_sound second.property otherCopied
  rw [canonicalJson, canonicalJson, copied, otherCopied]
  constructor
  · intro same
    have texts : copy.stringify = other.stringify := by injection same
    have values : copy = other := by
      have parsed := parseJson_stringify sound.1
      rw [texts, parseJson_stringify otherSound.1] at parsed
      exact (Option.some.inj parsed).symm
    subst values
    exact sound.2.symm.trans otherSound.2
  · intro equal
    rw [transformInner_unique first.property second.property equal copied otherCopied]

theorem digestOf_eq_iff {sha256Hex : JsString → JsString} (injective : Function.Injective sha256Hex)
    {first second : JsonLike} (succeeds : Canonicalizable first)
    (otherSucceeds : Canonicalizable second) :
    digestOf sha256Hex first.val = digestOf sha256Hex second.val ↔
      canonicalJson first.val = canonicalJson second.val := by
  obtain ⟨copy, copied⟩ := succeeds
  obtain ⟨other, otherCopied⟩ := otherSucceeds
  simp only [digestOf, canonicalJson, copied, otherCopied, Except.map, Except.ok.injEq,
    List.append_cancel_left_eq, injective.eq_iff]

/-- Canonicalization succeeds on the values a JSON text denotes. -/
theorem transformInner_isJson {value : JsValue} :
    ∀ path, value.isJson = true → ∃ copy, transformInner path value = .ok copy := by
  induction value using JsValue.induction with
  | undefined => intro path json; cases json
  | null => intro path _; exact ⟨_, rfl⟩
  | bool value => intro path _; exact ⟨_, rfl⟩
  | string value => intro path _; exact ⟨_, rfl⟩
  | number value => intro path json; exact ⟨_, if_pos json⟩
  | array items inductionHypothesis =>
      intro path json
      rw [JsValue.isJson, itemsAreJson_iff] at json
      have copied : ∀ index, ∃ copies, transformItems path index items = .ok copies := by
        induction items with
        | nil => intro index; exact ⟨[], rfl⟩
        | cons item rest itemsHypothesis =>
            intro index
            have itemJson := json item List.mem_cons_self
            obtain ⟨copy, equal⟩ := inductionHypothesis item List.mem_cons_self
              (path ++ [natText index]) itemJson
            obtain ⟨copies, restEqual⟩ := itemsHypothesis
              (fun other member => inductionHypothesis other (List.mem_cons_of_mem _ member))
              (fun other member => json other (List.mem_cons_of_mem _ member)) (index + 1)
            refine ⟨copy :: copies, ?_⟩
            rw [transformItems, isUndefined_of_isJson itemJson, if_neg (by simp), equal, restEqual]
            rfl
      obtain ⟨copies, equal⟩ := copied 0
      exact ⟨.array copies, by rw [transformInner, equal]; rfl⟩
  | object members inductionHypothesis =>
      intro path json
      rw [JsValue.isJson, Bool.and_eq_true, membersAreJson_iff] at json
      have entries : ∀ entry ∈ sortEntries (transformMembers path members),
          ∃ copy, entry.2 = .ok copy := by
        rintro ⟨key, result⟩ member
        obtain ⟨value, found, -, rfl⟩ := mem_transformMembers.mp (mem_sortEntries.mp member)
        exact inductionHypothesis (key, value) found _ (json.2 _ found)
      have values : ∀ list : List (JsString × Except CanonicalError JsValue),
          (∀ entry ∈ list, ∃ copy, entry.2 = .ok copy) →
          ∃ copies : Members, list = copies.map fun copy => (copy.1, .ok copy.2) := by
        intro list ok
        induction list with
        | nil => exact ⟨[], rfl⟩
        | cons entry rest listHypothesis =>
            obtain ⟨copy, equal⟩ := ok entry List.mem_cons_self
            obtain ⟨copies, rfl⟩ := listHypothesis fun other member =>
              ok other (List.mem_cons_of_mem _ member)
            exact ⟨(entry.1, copy) :: copies, by rw [List.map_cons, ← equal]⟩
      obtain ⟨copies, shape⟩ := values _ entries
      exact ⟨_, by rw [transformInner, shape, assignAll_values]; rfl⟩

theorem isWellFormed_of_isJson {value : JsValue} :
    value.isJson = true → value.isWellFormed = true := by
  induction value using JsValue.induction with
  | undefined => intro json; cases json
  | null => exact fun _ => rfl
  | bool value => exact fun _ => rfl
  | string value => exact fun _ => rfl
  | number value => exact fun _ => rfl
  | array items inductionHypothesis =>
      intro json
      rw [JsValue.isJson, itemsAreJson_iff] at json
      rw [JsValue.isWellFormed, itemsAreWellFormed_iff]
      exact fun item member => inductionHypothesis item member (json item member)
  | object members inductionHypothesis =>
      intro json
      rw [JsValue.isJson, Bool.and_eq_true, membersAreJson_iff] at json
      rw [JsValue.isWellFormed, Bool.and_eq_true, membersAreWellFormed_iff]
      exact ⟨json.1, fun member found => inductionHypothesis member found (json.2 member found)⟩

/-- The canonical text, and with an injective hash the digest, identify exactly the
logically equal values. -/
def IdentifiesLogicalValues (first second : JsonLike) : Prop :=
  (canonicalJson first.val = canonicalJson second.val ↔
      LogicallyEqual first.val second.val) ∧
    ∀ sha256Hex : JsString → JsString, Function.Injective sha256Hex →
      (digestOf sha256Hex first.val = digestOf sha256Hex second.val ↔
        LogicallyEqual first.val second.val)

theorem logicallyEqual_withoutProto {first second : JsValue}
    (equal : LogicallyEqual first second) :
    LogicallyEqual (withoutProto first) (withoutProto second) := by
  induction equal with
  | undefined => exact .undefined
  | null => exact .null
  | bool value => exact .bool value
  | number value => exact .number value
  | string value => exact .string value
  | array length _ inductionHypothesis =>
      simp only [withoutProto, itemsWithoutProto_eq_map]
      refine .array (by simp [length]) fun index => ?_
      have item := inductionHypothesis index
      have mapped : ∀ items : List JsValue, (items.map withoutProto).getD index .undefined =
          withoutProto (items.getD index .undefined) := fun items => items.getD_map .undefined withoutProto
      rwa [mapped, mapped]
  | object _ inductionHypothesis =>
      refine .object fun key => ?_
      rw [lookup_membersWithoutProto, lookup_membersWithoutProto]
      split
      next => exact .undefined
      next => exact inductionHypothesis key

/-- Canonical JSON is an identity of logical values on the pairs of values that do not
differ only in properties named `__proto__`, and on no others. -/
theorem canonicalJson_identity {first second : JsonLike} (succeeds : Canonicalizable first)
    (otherSucceeds : Canonicalizable second) :
    IdentifiesLogicalValues first second ↔ ¬ DifferOnlyInProto first.val second.val := by
  have texts := canonicalJson_eq_iff succeeds otherSucceeds
  constructor
  · rintro ⟨identifies, -⟩ ⟨hidden, different⟩
    exact different (identifies.mp (texts.mpr hidden))
  · intro visible
    have equal : LogicallyEqual (withoutProto first.val) (withoutProto second.val) ↔
        LogicallyEqual first.val second.val := by
      refine ⟨fun hidden => ?_, logicallyEqual_withoutProto⟩
      by_contra different
      exact visible ⟨hidden, different⟩
    refine ⟨texts.trans equal, fun sha256Hex injective => ?_⟩
    exact (digestOf_eq_iff injective succeeds otherSucceeds).trans (texts.trans equal)

/-- An object with one own property named `__proto__`. -/
def protoCarrier : JsonLike :=
  ⟨.object [(protoKey, .bool true)], by decide⟩

def emptyObject : JsonLike :=
  ⟨.object [], by decide⟩

theorem canonicalJson_identity_protoCarrier :
    IdentifiesLogicalValues protoCarrier emptyObject ↔
      ¬ DifferOnlyInProto protoCarrier.val emptyObject.val :=
  canonicalJson_identity ⟨.object [], by rfl⟩ ⟨.object [], by rfl⟩

theorem canonicalJson_conflates_protoCarrier :
    Canonicalizable protoCarrier ∧ Canonicalizable emptyObject ∧
      canonicalJson protoCarrier.val = canonicalJson emptyObject.val ∧
      ¬ LogicallyEqual protoCarrier.val emptyObject.val := by
  refine ⟨⟨.object [], by rfl⟩, ⟨.object [], by rfl⟩, by rfl, fun equal => ?_⟩
  have properties : LogicallyEqual (lookup protoKey [(protoKey, .bool true)])
      (lookup protoKey []) := by
    cases equal with
    | object properties => exact properties protoKey
  rw [lookup_cons_self, lookup_nil] at properties
  cases properties

end SpecAsCode.Core
