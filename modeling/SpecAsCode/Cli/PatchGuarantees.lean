import SpecAsCode.Cli.PatchOps

/-!
# What the patch commands guarantee

When verifying and applying a file of ops end, agree with each other, make all of the changes or
none, and stay below the root.
-/

namespace SpecAsCode.Cli

open SpecAsCode.Js
open SpecAsCode.Executor
open SpecAsCode.Lib
open SpecAsCode.Text

/-! ## Counting occurrences -/

section Occurrences

variable {haystack needle : JsString}

theorem indexOf_empty (haystack : JsString) (position : Nat) :
    indexOf haystack [] position = some (min position haystack.length) := by
  have inside : min position haystack.length ≤ haystack.length := Nat.min_le_right ..
  rw [indexOf, List.find?_range'_eq_some]
  refine ⟨rfl, List.mem_range'_1.mpr ⟨Nat.le_refl _, by omega⟩, fun j later before => ?_⟩
  omega

/-- An empty needle is found in every round. -/
theorem countLoop_empty (haystack : JsString) (rounds count i : Nat) :
    countLoop haystack [] rounds count i = none := by
  induction rounds generalizing count i with
  | zero => rfl
  | succ rounds inductionHypothesis =>
      rw [countLoop, indexOf_empty]
      exact inductionHypothesis _ _

theorem count_drop (nonempty : needle ≠ []) (i : Nat) :
    Occurrence.count needle (haystack.drop i) =
      (if needle.isPrefixOf (haystack.drop i) then 1 else 0) +
        Occurrence.count needle (haystack.drop (i + 1)) := by
  rw [← List.tail_drop]
  cases haystack.drop i with
  | nil =>
      rw [if_neg (by simpa [List.isPrefixOf_iff_prefix] using nonempty), Nat.zero_add]
      rfl
  | cons letter rest =>
      rw [Occurrence.count, List.tail_cons]
      split_ifs
      · exact Nat.add_comm _ _
      · exact (Nat.zero_add _).symm

/-- Places where the needle does not start count for nothing. -/
theorem count_drop_skip (nonempty : needle ≠ []) {i : Nat} (places : Nat)
    (absent : ∀ j, i ≤ j → j < i + places → needle.isPrefixOf (haystack.drop j) = false) :
    Occurrence.count needle (haystack.drop i) =
      Occurrence.count needle (haystack.drop (i + places)) := by
  induction places with
  | zero => rfl
  | succ places inductionHypothesis =>
      rw [inductionHypothesis fun j later before => absent j later (by omega),
        count_drop nonempty (i + places), absent (i + places) (by omega) (by omega)]
      exact Nat.zero_add _

theorem countLoop_eq (nonempty : needle ≠ []) (rounds count i : Nat)
    (inside : i ≤ haystack.length + 1) (enough : haystack.length + 1 < i + rounds) :
    countLoop haystack needle rounds count i =
      some (count + Occurrence.count needle (haystack.drop i)) := by
  induction rounds generalizing count i with
  | zero => omega
  | succ rounds inductionHypothesis =>
      rw [countLoop]
      cases found : indexOf haystack needle i with
      | none =>
          have none : ∀ j, i ≤ j → j < i + (haystack.length + 1 - i) →
              needle.isPrefixOf (haystack.drop j) = false := by
            intro j later before
            rw [indexOf, List.find?_range'_eq_none] at found
            simpa using found j (by omega) (by omega)
          rw [count_drop_skip nonempty _ none, List.drop_of_length_le (by omega),
            Occurrence.count, if_neg nonempty]
          rfl
      | some place =>
          rw [indexOf, List.find?_range'_eq_some, List.mem_range'_1] at found
          obtain ⟨here, ⟨later, before⟩, absent⟩ := found
          have shorter : place < haystack.length := by
            by_contra beyond
            rw [List.drop_of_length_le (by omega), List.isPrefixOf_iff_prefix] at here
            exact nonempty (List.prefix_nil.mp here)
          have reach : i + (place - i) = place := by omega
          have before : ∀ j, i ≤ j → j < i + (place - i) →
              needle.isPrefixOf (haystack.drop j) = false :=
            fun j after earlier => by simpa using absent j (by omega) (by omega)
          have skipped := count_drop_skip nonempty (place - i) before
          rw [reach] at skipped
          dsimp only
          rw [inductionHypothesis (count + 1) (place + 1) (by omega) (by omega), skipped,
            count_drop nonempty place, if_pos here, Nat.add_assoc]

/-- The loop ends just when the needle is not empty, and counts the occurrences then. -/
theorem occurrencesOf_eq (haystack needle : JsString) :
    occurrencesOf haystack needle =
      if needle = [] then none else some (countOccurrences haystack needle) := by
  rw [occurrencesOf]
  split_ifs with empty
  · rw [empty, countLoop_empty]
  · rw [countLoop_eq empty _ _ _ (Nat.zero_le _) (by omega), List.drop_zero, Nat.zero_add,
      countOccurrences]

/-- A loop that has not ended in the rounds it is given never does. -/
theorem occurrencesOf_eq_none :
    occurrencesOf haystack needle = none ↔
      ∀ rounds, countLoop haystack needle rounds 0 0 = none := by
  constructor
  · intro loops rounds
    rw [occurrencesOf_eq] at loops
    split_ifs at loops with empty
    rw [empty]
    exact countLoop_empty haystack rounds 0 0
  · exact fun never => never _

end Occurrences

/-! ## Patches that come to their anchors -/

section Turns

variable {sha256Hex : List Octet → JsString} {disk : Files} {root : JsString}

/-- The op is taken for a patch, of a text that is there and has the digest it declares. -/
structure MeetsBase (sha256Hex : List Octet → JsString) (disk : Files) (root : JsString)
    (staging : OpStaging) (op : Nat) (change : JsValue) : Prop where
  isValue : change.isNullish = false
  isPatch : ∀ kind ∈ [js "delete", js "create", js "update"],
    (change.property (js "op")).asString ≠ some kind
  base : ∃ base, patchBase disk root staging op (change.property (js "path")) =
      some (.string base) ∧
    (change.property (js "baseDigest")).asString = some (fileDigest sha256Hex base)

theorem refuse_ne_loops {Result : Type} (code : JsString) (parts : List (Option JsString)) :
    (refuse code parts : Outcome Result) ≠ .loops := by
  rw [refuse]
  split_ifs <;> nofun

theorem stagePatch_loops_iff {staging : OpStaging} {op : Nat} {change : JsValue} :
    stagePatch sha256Hex disk root staging op change = .loops ↔
      (∃ base, patchBase disk root staging op (change.property (js "path")) =
          some (.string base) ∧
        (change.property (js "baseDigest")).asString = some (fileDigest sha256Hex base)) ∧
      (change.property (js "anchor")).toText = some [] := by
  rw [stagePatch]
  cases patchBase disk root staging op (change.property (js "path")) with
  | none => exact iff_of_false (refuse_ne_loops _ _) (by rintro ⟨⟨base, missing, -⟩, -⟩; cases missing)
  | some content =>
      cases content with
      | string base =>
          dsimp only
          by_cases digest :
              (change.property (js "baseDigest")).asString = some (fileDigest sha256Hex base)
          · rw [if_neg (not_not.mpr digest)]
            have there : ∃ text, some (JsValue.string base) = some (.string text) ∧
                (change.property (js "baseDigest")).asString = some (fileDigest sha256Hex text) :=
              ⟨base, rfl, digest⟩
            rw [and_iff_right there]
            cases (change.property (js "anchor")).toText with
            | none => exact iff_of_false nofun nofun
            | some needle =>
                dsimp only
                rw [occurrencesOf_eq]
                by_cases empty : needle = []
                · rw [if_pos empty, empty]
                  exact iff_of_true rfl rfl
                · rw [if_neg empty]
                  refine iff_of_false ?_ (by simpa using empty)
                  split
                  · contradiction
                  · exact refuse_ne_loops _ _
                  · cases (change.property (js "replacement")).toText <;> nofun
                  · exact refuse_ne_loops _ _
          · rw [if_pos digest]
            refine iff_of_false (refuse_ne_loops _ _) ?_
            rintro ⟨⟨text, same, declared⟩, -⟩
            cases same
            exact digest declared
      | undefined => exact iff_of_false nofun (by rintro ⟨⟨base, same, -⟩, -⟩; cases same)
      | null => exact iff_of_false nofun (by rintro ⟨⟨base, same, -⟩, -⟩; cases same)
      | bool value => exact iff_of_false nofun (by rintro ⟨⟨base, same, -⟩, -⟩; cases same)
      | number value => exact iff_of_false nofun (by rintro ⟨⟨base, same, -⟩, -⟩; cases same)
      | array items => exact iff_of_false nofun (by rintro ⟨⟨base, same, -⟩, -⟩; cases same)
      | object members => exact iff_of_false nofun (by rintro ⟨⟨base, same, -⟩, -⟩; cases same)

theorem stageOp_loops_iff {staging : OpStaging} {op : Nat} {change : JsValue} :
    stageOp sha256Hex disk root staging op change = .loops ↔
      MeetsBase sha256Hex disk root staging op change ∧
        (change.property (js "anchor")).toText = some [] := by
  rw [stageOp]
  split_ifs with nullish isDelete isCreate isUpdate
  · exact iff_of_false nofun fun meets => Bool.eq_false_iff.mp meets.1.isValue nullish
  · exact iff_of_false nofun fun meets => meets.1.isPatch _ (by simp) isDelete
  · exact iff_of_false nofun fun meets => meets.1.isPatch _ (by simp) isCreate
  · exact iff_of_false nofun fun meets => meets.1.isPatch _ (by simp) isUpdate
  · rw [stagePatch_loops_iff]
    constructor
    · rintro ⟨base, empty⟩
      exact ⟨⟨by simpa using nullish, by simp [isDelete, isCreate, isUpdate], base⟩, empty⟩
    · rintro ⟨meets, empty⟩
      exact ⟨meets.base, empty⟩

/-- Staging does not end just when an op that it comes to has an anchor with an empty text. -/
theorem stageOps_loops_iff {staging : OpStaging} {op : Nat} {changes : List JsValue} :
    stageOps sha256Hex disk root staging op changes = .loops ↔
      ∃ before change after next, changes = before ++ change :: after ∧
        stageOps sha256Hex disk root staging op before = .done next ∧
        MeetsBase sha256Hex disk root next (op + before.length) change ∧
        (change.property (js "anchor")).toText = some [] := by
  induction changes generalizing staging op with
  | nil =>
      refine iff_of_false nofun ?_
      rintro ⟨before, change, after, next, shape, -⟩
      cases (List.append_eq_nil_iff.mp shape.symm).2
  | cons first rest inductionHypothesis =>
      rw [stageOps]
      constructor
      · intro loops
        cases passed : stageOp sha256Hex disk root staging op first with
        | loops =>
            obtain ⟨meets, empty⟩ := stageOp_loops_iff.mp passed
            exact ⟨[], first, rest, staging, rfl, rfl, meets, empty⟩
        | threw =>
            rw [passed] at loops
            cases loops
        | refused code =>
            rw [passed] at loops
            cases loops
        | done next =>
            rw [passed] at loops
            obtain ⟨before, change, after, last, rfl, done, meets, empty⟩ :=
              inductionHypothesis.mp loops
            refine ⟨first :: before, change, after, last, rfl, ?_, ?_, empty⟩
            · rw [stageOps, passed]
              exact done
            · rw [List.length_cons, Nat.add_comm before.length 1, ← Nat.add_assoc]
              exact meets
      · rintro ⟨before, change, after, last, shape, done, meets, empty⟩
        cases before with
        | nil =>
            cases shape
            cases done
            rw [List.length_nil, Nat.add_zero] at meets
            rw [stageOp_loops_iff.mpr ⟨meets, empty⟩]
            rfl
        | cons head before =>
            cases shape
            rw [stageOps] at done
            cases passed : stageOp sha256Hex disk root staging op first with
            | loops => rfl
            | threw =>
                rw [passed] at done
                cases done
            | refused code =>
                rw [passed] at done
                cases done
            | done next =>
                rw [passed] at done
                refine inductionHypothesis.mpr ⟨before, change, after, last, rfl, done, ?_, empty⟩
                rw [List.length_cons, Nat.add_comm before.length 1, ← Nat.add_assoc] at meets
                exact meets

end Turns

/-! ## What is claimed -/

/-- The place is at the root or below it. -/
def Inside (disk : Files) (root : JsString) (place : Place JsString) : Prop :=
  ∃ base, disk.reach (pathNames root) = some base ∧ base <+: place

structure PatchSafe (sha256Hex : List Octet → JsString) (disk : Files) (root : JsString)
    (line : StagedOps → List Octet) (changes : List JsValue) : Prop where
  verifyEnds : runPatchVerify sha256Hex disk root changes ≠ .loops
  applyEnds : runPatchApply root sha256Hex disk line changes ≠ .loops
  agree : (∃ ops, runPatchVerify sha256Hex disk root changes = .done ops) ↔
    ∃ applied, runPatchApply root sha256Hex disk line changes = .done applied ∧
      applied.performed = true
  whole : ∀ applied, runPatchApply root sha256Hex disk line changes = .done applied →
    applied.performed = true ∨
      ∀ place, applied.progress.disk.item place = disk.item place
  inside : ∀ applied, runPatchApply root sha256Hex disk line changes = .done applied →
    ∀ place ∈ applied.progress.touched, Inside disk root place
  outside : ∀ applied, runPatchApply root sha256Hex disk line changes = .done applied →
    ∀ place, ¬ Inside disk root place → applied.progress.disk.item place = disk.item place

/-! ## When it holds -/

section Condition

variable (sha256Hex : List Octet → JsString) (disk : Files) (root : JsString)

/-- No op that comes to its anchor has one with an empty text. -/
def Anchored (changes : List JsValue) : Prop :=
  ∀ before change after staging, changes = before ++ change :: after →
    stageOps sha256Hex disk root .empty 0 before = .done staging →
      MeetsBase sha256Hex disk root staging before.length change →
        (change.property (js "anchor")).toText ≠ some []

/-- Path and content are strings, the directories can be made, and the path leads to a place below
the root that is not a directory. -/
def Writable (progress : Progress) (write : OpWrite) : Prop :=
  ∃ path text made place, write.key = .text path ∧ write.content = .string text ∧
    mkdirSync progress.disk (Path.dirname (Path.join root path)) = some made ∧
    hasNul (Path.join root path) = false ∧
    Path.hasTrailingSlash (Path.join root path) = false ∧
    made.locate (pathNames (Path.join root path)) = some place ∧
    made.isDirectory place = false ∧ Inside disk root place

/-- The path is a string and names no directory, and what it names is below the root. -/
def Removable (progress : Progress) (key : PathKey) : Prop :=
  ∃ path, key = .text path ∧ rmSync progress.disk (Path.join root path) ≠ .refused ∧
    ∀ place after, rmSync progress.disk (Path.join root path) = .removed place after →
      Inside disk root place

/-- A build cache is below the root. -/
def CacheInside (dir : List JsString) (progress : Progress) (entry : JsString) : Prop :=
  (js ".tsbuildinfo").isSuffixOf entry = true →
    ∀ place after, progress.disk.remove (dir ++ [entry]) = .removed place after →
      Inside disk root place

def CachesInside (progress : Progress) (dir : List JsString) : Prop :=
  ∀ entries, progress.disk.list dir = some entries →
    EachTaken (clearCache dir) (CacheInside disk root dir) entries progress

def LogInside (progress : Progress) : Prop :=
  ∀ made place, progress.disk.make (pathNames root ++ [js ".spc"]) = some made →
    made.locate (pathNames root ++ [js ".spc"] ++ [js "patch-log.jsonl"]) = some place →
      made.isDirectory place = false → Inside disk root place

/-- Every write and delete can be made, below the root, and so can what follows them. -/
structure Harmless (staged : StagedOps) : Prop where
  writes : EachTaken (applyWrite root) (Writable disk root) staged.writes ⟨disk, []⟩
  deletes : ∀ written, staged.writes.foldlM (applyWrite root) ⟨disk, []⟩ = .ok written →
    EachTaken (applyDelete root) (Removable disk root) staged.deletes written
  caches : ∀ applied, applyAll root ⟨disk, []⟩ staged = .ok applied →
    EachTaken clearCaches (CachesInside disk root) (packageDirs root applied.disk staged.paths)
      applied
  log : ∀ applied cleared, applyAll root ⟨disk, []⟩ staged = .ok applied →
    (packageDirs root applied.disk staged.paths).foldlM clearCaches applied = .ok cleared →
      LogInside disk root cleared

end Condition

/-! ## Passes of the loops -/

section Passes

variable {disk : Files} {root : JsString}

/-- Nothing outside the root has been touched. -/
def Good (disk : Files) (root : JsString) (progress : Progress) : Prop :=
  ∀ place ∈ progress.touched, Inside disk root place

theorem good_snoc {files : Files} {touched : List (Place JsString)} {place : Place JsString}
    (good : ∀ other ∈ touched, Inside disk root other) :
    Good disk root ⟨files, touched ++ [place]⟩ ↔ Inside disk root place := by
  rw [Good]
  simp only [List.mem_append, List.mem_singleton]
  constructor
  · exact fun all => all place (Or.inr rfl)
  · rintro inside other (earlier | rfl)
    · exact good other earlier
    · exact inside

theorem Good.of_snoc {files : Files} {progress : Progress} {place : Place JsString}
    (good : Good disk root ⟨files, progress.touched ++ [place]⟩) : Good disk root progress :=
  fun other earlier => good other (List.mem_append_left _ earlier)

/-- A write that is made is made at a place. -/
theorem applyWrite_ok_iff {progress next : Progress} {write : OpWrite} :
    applyWrite root progress write = .ok next ↔
      ∃ path text made place, write.key = .text path ∧ write.content = .string text ∧
        mkdirSync progress.disk (Path.dirname (Path.join root path)) = some made ∧
        hasNul (Path.join root path) = false ∧
        Path.hasTrailingSlash (Path.join root path) = false ∧
        made.locate (pathNames (Path.join root path)) = some place ∧
        made.isDirectory place = false ∧
        next = ⟨(place, .file (encodeUtf8 text)) :: made, progress.touched ++ [place]⟩ := by
  constructor
  · intro applied
    rw [applyWrite] at applied
    split at applied
    · cases applied
    · rename_i path isText
      dsimp only at applied
      split at applied
      · cases applied
      · rename_i made makes
        split at applied
        · cases applied
        · rename_i disk place writes
          cases applied
          obtain ⟨key, content, label⟩ := write
          cases key with
          | primitive display => cases isText
          | reference op => cases isText
          | text path =>
              cases isText
              cases content with
              | string text =>
                  rw [writeFileSync] at writes
                  split_ifs at writes with refused
                  rw [Bool.or_eq_true, not_or, Bool.not_eq_true, Bool.not_eq_true] at refused
                  obtain ⟨there, located, isFile, shape⟩ := Disk.write_eq_some.mp writes
                  cases shape
                  exact ⟨path, text, made, place, rfl, rfl, makes, refused.1, refused.2, located,
                    isFile, rfl⟩
              | undefined => cases writes
              | null => cases writes
              | bool value => cases writes
              | number value => cases writes
              | array items => cases writes
              | object members => cases writes
  · rintro ⟨path, text, made, place, key, content, makes, nul, slash, located, isFile, rfl⟩
    have writes : writeFileSync made (Path.join root path) (.string text) =
        some ((place, .file (encodeUtf8 text)) :: made, place) := by
      rw [writeFileSync, nul, slash]
      exact Disk.write_eq_some.mpr ⟨place, located, isFile, rfl⟩
    rw [applyWrite, key, content]
    simp only [PathKey.asText, makes, writes]

theorem applyDelete_ok_iff {progress next : Progress} {key : PathKey} :
    applyDelete root progress key = .ok next ↔
      ∃ path, key = .text path ∧
        (rmSync progress.disk (Path.join root path) = .absent ∧ next = progress ∨
          ∃ place disk, rmSync progress.disk (Path.join root path) = .removed place disk ∧
            next = ⟨disk, progress.touched ++ [place]⟩) := by
  constructor
  · intro applied
    cases key with
    | primitive display => cases applied
    | reference op => cases applied
    | text path =>
        rw [applyDelete] at applied
        refine ⟨path, rfl, ?_⟩
        simp only [PathKey.asText] at applied
        cases removes : rmSync progress.disk (Path.join root path) with
        | refused =>
            rw [removes] at applied
            cases applied
        | absent =>
            rw [removes] at applied
            cases applied
            exact Or.inl ⟨rfl, rfl⟩
        | removed place disk =>
            rw [removes] at applied
            cases applied
            exact Or.inr ⟨place, disk, rfl, rfl⟩
  · rintro ⟨path, rfl, ⟨absent, rfl⟩ | ⟨place, disk, removes, rfl⟩⟩
    · simp only [applyDelete, PathKey.asText, absent]
    · simp only [applyDelete, PathKey.asText, removes]

theorem writable_iff (progress : Progress) (write : OpWrite) (good : Good disk root progress) :
    Writable disk root progress write ↔
      ∃ next, applyWrite root progress write = .ok next ∧ Good disk root next := by
  constructor
  · rintro ⟨path, text, made, place, key, content, makes, nul, slash, located, isFile, inside⟩
    exact ⟨_, applyWrite_ok_iff.mpr ⟨path, text, made, place, key, content, makes, nul, slash,
      located, isFile, rfl⟩, (good_snoc good).mpr inside⟩
  · rintro ⟨next, applied, next_good⟩
    obtain ⟨path, text, made, place, key, content, makes, nul, slash, located, isFile, rfl⟩ :=
      applyWrite_ok_iff.mp applied
    exact ⟨path, text, made, place, key, content, makes, nul, slash, located, isFile,
      (good_snoc good).mp next_good⟩

theorem removable_iff (progress : Progress) (key : PathKey) (good : Good disk root progress) :
    Removable disk root progress key ↔
      ∃ next, applyDelete root progress key = .ok next ∧ Good disk root next := by
  constructor
  · rintro ⟨path, rfl, notRefused, inside⟩
    cases removes : rmSync progress.disk (Path.join root path) with
    | refused => exact absurd removes notRefused
    | absent => exact ⟨progress, applyDelete_ok_iff.mpr ⟨path, rfl, Or.inl ⟨removes, rfl⟩⟩, good⟩
    | removed place after =>
        exact ⟨_, applyDelete_ok_iff.mpr ⟨path, rfl, Or.inr ⟨place, after, removes, rfl⟩⟩,
          (good_snoc good).mpr (inside place after removes)⟩
  · rintro ⟨next, applied, next_good⟩
    obtain ⟨path, rfl, ⟨absent, -⟩ | ⟨place, after, removes, rfl⟩⟩ := applyDelete_ok_iff.mp applied
    · refine ⟨path, rfl, by rw [absent]; nofun, fun place after removes => ?_⟩
      rw [absent] at removes
      cases removes
    · refine ⟨path, rfl, by rw [removes]; nofun, fun other later same => ?_⟩
      rw [removes] at same
      cases same
      exact (good_snoc good).mp next_good

theorem cacheInside_iff (dir : List JsString) (progress : Progress) (entry : JsString)
    (good : Good disk root progress) :
    CacheInside disk root dir progress entry ↔
      Good disk root (reached (clearCache dir progress entry)) := by
  rw [clearCache]
  split_ifs with isCache
  · cases removes : progress.disk.remove (dir ++ [entry]) with
    | absent => exact iff_of_true (fun _ place after same => by rw [removes] at same; cases same) good
    | refused => exact iff_of_true (fun _ place after same => by rw [removes] at same; cases same) good
    | removed place after =>
        refine Iff.trans ⟨fun inside => inside isCache place after removes, ?_⟩
          (good_snoc good).symm
        intro inside _ other later same
        rw [removes] at same
        cases same
        exact inside
  · exact iff_of_true (fun holds => absurd holds isCache) good

theorem good_of_clearCache (dir : List JsString) (progress : Progress) (entry : JsString)
    (good : Good disk root (reached (clearCache dir progress entry))) :
    Good disk root progress := by
  rw [clearCache] at good
  split_ifs at good
  · cases removes : progress.disk.remove (dir ++ [entry]) with
    | absent => rwa [removes] at good
    | refused => rwa [removes] at good
    | removed place after =>
        rw [removes] at good
        exact good.of_snoc
  · exact good

theorem cachesInside_iff (progress : Progress) (dir : List JsString)
    (good : Good disk root progress) :
    CachesInside disk root progress dir ↔ Good disk root (reached (clearCaches progress dir)) := by
  rw [clearCaches, CachesInside]
  cases progress.disk.list dir with
  | none => exact iff_of_true nofun good
  | some entries =>
      have each := eachTaken_iff_reached (cacheInside_iff dir) (good_of_clearCache dir) entries good
      exact Iff.trans ⟨fun all => all entries rfl, fun taken other same => by cases same; exact taken⟩
        each

theorem good_of_clearCaches (progress : Progress) (dir : List JsString)
    (good : Good disk root (reached (clearCaches progress dir))) : Good disk root progress := by
  rw [clearCaches] at good
  cases listed : progress.disk.list dir with
  | none => rwa [listed] at good
  | some entries =>
      rw [listed] at good
      exact good_of_reached (good_of_clearCache dir) entries good

theorem good_of_applyWrite (progress : Progress) (write : OpWrite)
    (good : Good disk root (reached (applyWrite root progress write))) :
    Good disk root progress := by
  cases applied : applyWrite root progress write with
  | ok next =>
      obtain ⟨path, text, made, place, -, -, -, -, -, -, -, rfl⟩ := applyWrite_ok_iff.mp applied
      rw [applied] at good
      exact good.of_snoc
  | error last =>
      rw [applied] at good
      rw [applyWrite] at applied
      split at applied
      · cases applied
        exact good
      · dsimp only at applied
        split at applied
        · cases applied
          exact good
        · split at applied <;> cases applied
          exact good

theorem good_of_applyDelete (progress : Progress) (key : PathKey)
    (good : Good disk root (reached (applyDelete root progress key))) :
    Good disk root progress := by
  rw [applyDelete] at good
  split at good
  · exact good
  · split at good
    · exact good
    · exact good
    · exact good.of_snoc

theorem good_of_appendPatchLog (progress : Progress) (line : List Octet)
    (good : Good disk root (appendPatchLog root progress line)) : Good disk root progress := by
  rw [appendPatchLog] at good
  dsimp only at good
  split at good
  · exact good
  · split at good
    · exact good
    · exact good.of_snoc

theorem logInside_iff (progress : Progress) (line : List Octet) (good : Good disk root progress) :
    LogInside disk root progress ↔ Good disk root (appendPatchLog root progress line) := by
  rw [appendPatchLog]
  cases makes : progress.disk.make (pathNames root ++ [js ".spc"]) with
  | none => exact iff_of_true (fun made place same => by rw [makes] at same; cases same) good
  | some made =>
      dsimp only
      split
      · rename_i writes
        refine iff_of_true (fun other place same located isFile => ?_) good
        rw [makes] at same
        cases same
        rw [Disk.write_eq_some.mpr ⟨place, located, isFile, rfl⟩] at writes
        cases writes
      · rename_i after place writes
        obtain ⟨there, located, isFile, shape⟩ := Disk.write_eq_some.mp writes
        cases shape
        rw [good_snoc good]
        constructor
        · exact fun inside => inside made place makes located isFile
        · intro inside other elsewhere same found _
          rw [makes] at same
          cases same
          rw [located] at found
          cases found
          exact inside

end Passes

/-! ## What is not touched -/

section Untouched

variable {disk : Files} {root : JsString}

/-- What has not been touched is as it was, but for new directories. -/
def Framed (disk : Files) (progress : Progress) : Prop :=
  ∀ place, place ∉ progress.touched → progress.disk.item place = disk.item place

theorem Framed.snoc {progress : Progress} (framed : Framed disk progress) {made after : Files}
    {place : Place JsString} (same : ∀ other, made.item other = progress.disk.item other)
    (changes : ∀ other, other ≠ place → after.item other = made.item other) :
    Framed disk ⟨after, progress.touched ++ [place]⟩ := by
  intro other untouched
  rw [List.mem_append, not_or, List.mem_singleton] at untouched
  rw [changes other untouched.2, same other]
  exact framed other untouched.1

theorem item_mkdirSync {files made : Files} {path : JsString}
    (makes : mkdirSync files path = some made) (place : Place JsString) :
    made.item place = files.item place := by
  rw [mkdirSync] at makes
  split_ifs at makes
  exact Disk.item_make makes place

theorem item_rmSync {files after : Files} {path : JsString} {removed : Place JsString}
    (removes : rmSync files path = .removed removed after) {place : Place JsString}
    (other : place ≠ removed) : after.item place = files.item place := by
  rw [rmSync] at removes
  split_ifs at removes
  · split at removes <;> cases removes
  · exact Disk.item_remove removes other

theorem framed_applyWrite (progress : Progress) (write : OpWrite)
    (framed : Framed disk progress) : Framed disk (reached (applyWrite root progress write)) := by
  cases applied : applyWrite root progress write with
  | ok next =>
      obtain ⟨path, text, made, place, -, -, makes, -, -, -, -, rfl⟩ := applyWrite_ok_iff.mp applied
      exact framed.snoc (item_mkdirSync makes) fun other different =>
        Disk.item_of_look (Disk.look_cons_ne _ different _)
  | error last =>
      rw [applyWrite] at applied
      split at applied
      · cases applied
        exact framed
      · dsimp only at applied
        split at applied
        · cases applied
          exact framed
        · rename_i made makes
          split at applied
          · cases applied
            exact fun place untouched =>
              (item_mkdirSync makes place).trans (framed place untouched)
          · cases applied

theorem framed_applyDelete (progress : Progress) (key : PathKey) (framed : Framed disk progress) :
    Framed disk (reached (applyDelete root progress key)) := by
  rw [applyDelete]
  split
  · exact framed
  · split
    · exact framed
    · exact framed
    · rename_i place after removes
      exact framed.snoc (fun _ => rfl) fun other different => item_rmSync removes different

theorem framed_clearCache (dir : List JsString) (progress : Progress) (entry : JsString)
    (framed : Framed disk progress) : Framed disk (reached (clearCache dir progress entry)) := by
  rw [clearCache]
  split_ifs
  · split
    · rename_i place after removes
      exact framed.snoc (fun _ => rfl) fun other different => Disk.item_remove removes different
    · exact framed
  · exact framed

theorem framed_clearCaches (progress : Progress) (dir : List JsString)
    (framed : Framed disk progress) : Framed disk (reached (clearCaches progress dir)) := by
  rw [clearCaches]
  split
  · exact framed
  · rename_i entries _
    exact reached_foldlM (framed_clearCache dir) entries framed

theorem framed_appendPatchLog (progress : Progress) (line : List Octet)
    (framed : Framed disk progress) : Framed disk (appendPatchLog root progress line) := by
  rw [appendPatchLog]
  dsimp only
  split
  · exact framed
  · rename_i made makes
    split
    · exact fun place untouched => (Disk.item_make makes place).trans (framed place untouched)
    · rename_i after place writes
      exact framed.snoc (Disk.item_make makes) fun other different => Disk.item_write writes different

end Untouched

/-! ## Whole applications -/

section Whole

variable {disk : Files} {root : JsString}

theorem applyAll_ok_iff {staged : StagedOps} {start last : Progress} :
    applyAll root start staged = .ok last ↔
      ∃ written, staged.writes.foldlM (applyWrite root) start = .ok written ∧
        staged.deletes.foldlM (applyDelete root) written = .ok last := by
  rw [applyAll]
  cases staged.writes.foldlM (applyWrite root) start with
  | error stopped => exact iff_of_false nofun (by rintro ⟨written, same, -⟩; cases same)
  | ok written => exact ⟨fun done => ⟨written, rfl, done⟩, fun ⟨_, same, done⟩ => by cases same; exact done⟩

theorem framed_applyAll {staged : StagedOps} {start : Progress} (framed : Framed disk start) :
    Framed disk (reached (applyAll root start staged)) := by
  have written : Framed disk (reached (staged.writes.foldlM (applyWrite root) start)) :=
    reached_foldlM framed_applyWrite staged.writes framed
  rw [applyAll]
  cases writes : staged.writes.foldlM (applyWrite root) start with
  | error stopped =>
      rw [writes] at written
      exact written
  | ok next =>
      rw [writes] at written
      exact reached_foldlM framed_applyDelete staged.deletes written

theorem framed_afterApplying {staged : StagedOps} {line : List Octet} {progress : Progress}
    (framed : Framed disk progress) :
    Framed disk (reached (afterApplying root staged line progress)) := by
  have cleared := reached_foldlM framed_clearCaches (packageDirs root progress.disk staged.paths)
    framed
  rw [afterApplying]
  cases clears : (packageDirs root progress.disk staged.paths).foldlM clearCaches progress with
  | error stopped =>
      rw [clears] at cleared
      exact cleared
  | ok last =>
      rw [clears] at cleared
      exact framed_appendPatchLog last line cleared

theorem good_start (disk files : Files) (root : JsString) : Good disk root ⟨files, []⟩ := nofun

/-- Nothing harmful is staged just when every change can be made and nothing outside the root has
been touched in the end. -/
theorem harmless_iff {staged : StagedOps} (line : List Octet) :
    Harmless disk root staged ↔
      ∃ applied, applyAll root ⟨disk, []⟩ staged = .ok applied ∧
        Good disk root (reached (afterApplying root staged line applied)) := by
  have start := good_start disk disk root
  constructor
  · rintro ⟨writes, deletes, caches, log⟩
    obtain ⟨written, wrote, written_good⟩ :=
      (eachTaken_iff_ok writable_iff good_of_applyWrite staged.writes start).mp writes
    obtain ⟨applied, deleted, applied_good⟩ :=
      (eachTaken_iff_ok removable_iff good_of_applyDelete staged.deletes written_good).mp
        (deletes written wrote)
    have all := applyAll_ok_iff.mpr ⟨written, wrote, deleted⟩
    have cleared := (eachTaken_iff_reached cachesInside_iff good_of_clearCaches _ applied_good).mp
      (caches applied all)
    refine ⟨applied, all, ?_⟩
    rw [afterApplying]
    cases clears : (packageDirs root applied.disk staged.paths).foldlM clearCaches applied with
    | error stopped =>
        rw [clears] at cleared
        exact cleared
    | ok last =>
        rw [clears] at cleared
        exact (logInside_iff last line cleared).mp (log applied last all clears)
  · rintro ⟨applied, all, last_good⟩
    have cleared : Good disk root (reached
        ((packageDirs root applied.disk staged.paths).foldlM clearCaches applied)) := by
      rw [afterApplying] at last_good
      cases clears : (packageDirs root applied.disk staged.paths).foldlM clearCaches applied with
      | error stopped =>
          rw [clears] at last_good
          exact last_good
      | ok last =>
          rw [clears] at last_good
          exact good_of_appendPatchLog last line last_good
    have applied_good := good_of_reached good_of_clearCaches _ cleared
    obtain ⟨written, wrote, deleted⟩ := applyAll_ok_iff.mp all
    have written_good : Good disk root written :=
      good_of_reached good_of_applyDelete staged.deletes (by rw [deleted]; exact applied_good)
    refine ⟨?_, fun other same => ?_, fun other same => ?_, fun other last same clears => ?_⟩
    · exact (eachTaken_iff_ok writable_iff good_of_applyWrite staged.writes start).mpr
        ⟨written, wrote, written_good⟩
    · rw [wrote] at same
      cases same
      exact (eachTaken_iff_ok removable_iff good_of_applyDelete staged.deletes written_good).mpr
        ⟨applied, deleted, applied_good⟩
    · rw [all] at same
      cases same
      exact (eachTaken_iff_reached cachesInside_iff good_of_clearCaches _ applied_good).mpr cleared
    · rw [all] at same
      cases same
      rw [afterApplying, clears] at last_good
      rw [clears] at cleared
      exact (logInside_iff last line cleared).mpr last_good

end Whole

/-! ## The commands -/

section Commands

variable (sha256Hex : List Octet → JsString) (disk : Files) (root : JsString)
  (line : StagedOps → List Octet) (changes : List JsValue)

/-- Commands on ops that are not staged change nothing. -/
theorem patchSafe_of_unstaged
    (verify : ∀ ops, runPatchVerify sha256Hex disk root changes ≠ .done ops)
    (verifyEnds : runPatchVerify sha256Hex disk root changes ≠ .loops)
    (applyEnds : runPatchApply root sha256Hex disk line changes ≠ .loops)
    (apply : ∀ applied, runPatchApply root sha256Hex disk line changes = .done applied →
      applied = ⟨false, disk, []⟩) :
    PatchSafe sha256Hex disk root line changes := by
  refine ⟨verifyEnds, applyEnds, iff_of_false ?_ ?_, ?_, ?_, ?_⟩
  · rintro ⟨ops, accepted⟩
    exact verify ops accepted
  · rintro ⟨applied, done, performed⟩
    rw [apply applied done] at performed
    cases performed
  · rintro applied done
    rw [apply applied done]
    exact Or.inr fun _ => rfl
  · rintro applied done place touched
    rw [apply applied done] at touched
    cases touched
  · rintro applied done place -
    rw [apply applied done]

theorem patchSafe_staged_iff {staged : StagedOps} (nonempty : changes ≠ [])
    (stages : stageRaw sha256Hex disk root changes = .done staged) :
    PatchSafe sha256Hex disk root line changes ↔ Harmless disk root staged := by
  have verify : runPatchVerify sha256Hex disk root changes = .done changes.length := by
    rw [runPatchVerify, if_neg nonempty, stages]
    rfl
  rw [harmless_iff (line staged)]
  cases all : applyAll root ⟨disk, []⟩ staged with
  | error stopped =>
      have apply : runPatchApply root sha256Hex disk line changes = .done ⟨false, stopped⟩ := by
        simp only [runPatchApply, if_neg nonempty, stages, all]
      refine iff_of_false (fun safe => ?_) (by rintro ⟨applied, same, -⟩; cases same)
      obtain ⟨applied, done, performed⟩ := safe.agree.mp ⟨_, verify⟩
      rw [apply] at done
      cases done
      cases performed
  | ok progress =>
      have apply : runPatchApply root sha256Hex disk line changes =
          .done ⟨true, reached (afterApplying root staged (line staged) progress)⟩ := by
        simp only [runPatchApply, if_neg nonempty, stages, all]
      have framed : Framed disk (reached (afterApplying root staged (line staged) progress)) := by
        have applied : Framed disk (reached (applyAll root ⟨disk, []⟩ staged)) :=
          framed_applyAll fun place _ => rfl
        rw [all] at applied
        exact framed_afterApplying applied
      constructor
      · exact fun safe => ⟨progress, rfl, safe.inside _ apply⟩
      · rintro ⟨applied, same, good⟩
        cases same
        refine ⟨by rw [verify]; nofun, by rw [apply]; nofun, ?_, ?_, ?_, ?_⟩
        · exact iff_of_true ⟨_, verify⟩ ⟨_, apply, rfl⟩
        · rintro applied done
          rw [apply] at done
          cases done
          exact Or.inl rfl
        · rintro applied done
          rw [apply] at done
          cases done
          exact good
        · rintro applied done place outside
          rw [apply] at done
          cases done
          exact framed place fun touched => outside (good place touched)

theorem anchored_iff :
    Anchored sha256Hex disk root changes ↔ stageRaw sha256Hex disk root changes ≠ .loops := by
  have loops : stageRaw sha256Hex disk root changes = .loops ↔
      stageOps sha256Hex disk root .empty 0 changes = .loops := by
    rw [stageRaw]
    cases stageOps sha256Hex disk root .empty 0 changes <;> simp [Outcome.bind]
  rw [ne_eq, loops, stageOps_loops_iff]
  constructor
  · rintro anchored ⟨before, change, after, next, shape, done, meets, empty⟩
    rw [Nat.zero_add] at meets
    exact anchored before change after next shape done meets empty
  · intro never before change after next shape done meets empty
    exact never ⟨before, change, after, next, shape, done, by rwa [Nat.zero_add], empty⟩

end Commands

/-! ### A file without content -/

/-- The second of two files has no content. -/
def contentless : List JsValue :=
  [.object [(js "op", .string (js "create")), (js "path", .string (js "a")),
      (js "content", .string (js "x"))],
    .object [(js "op", .string (js "create")), (js "path", .string (js "b"))]]

theorem contentless_verified :
    runPatchVerify (fun _ => []) [([js "r"], .directory)] (js "/r") contentless = .done 2 := rfl

theorem contentless_interrupted :
    runPatchApply (js "/r") (fun _ => []) [([js "r"], .directory)] (fun _ => []) contentless =
      .done ⟨false, [([js "r", js "a"], .file (encodeUtf8 (js "x"))), ([js "r"], .directory)],
        [[js "r", js "a"]]⟩ := rfl

end SpecAsCode.Cli
