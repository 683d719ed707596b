import SpecAsCode.Core.Diagnostics
import SpecAsCode.Core.Glob
import Mathlib.Data.List.Perm.Basic
import Mathlib.Data.List.Sort

/-!
# Walks through a repository

A walk visits the entries of a directory in the order of their names, and goes into directories.
It stops at a depth, and after a number of entries.
-/

namespace SpecAsCode.Repo

open SpecAsCode.Js
open SpecAsCode.Core

/-! ## The walk -/

/-- A tree of files.  The root is the empty path. -/
structure FileSystem where
  /-- `readdirSync`, unless it throws. -/
  readdir : JsString → Option (List JsString)
  /-- `statSync(…).isDirectory()`, unless it throws.  A link is followed. -/
  isDirectory : JsString → Option Bool

def SKIP_DIRS : List JsString :=
  [js ".git", js "node_modules", js "dist", js "build", js "out", js ".spc", js ".venv", js "venv",
    js "__pycache__", js ".cache", js "coverage", js "target", js ".idea", js ".vscode",
    js ".gradle", js "Pods", js "DerivedData", js ".dart_tool", js ".expo", js ".next", js ".nuxt",
    js ".turbo"]

def MAX_ENTRIES : Nat := 4000

def MAX_DEPTH : Nat := 8

/-- The entries that were counted, and the visits: a path, and whether it is a directory. -/
structure WalkState where
  entries : Nat
  visits : List (JsString × Bool)
  deriving DecidableEq

/-- `relDir === "" ? name : relDir + "/" + name`. -/
def joinName (relDir name : JsString) : JsString :=
  if relDir = [] then name else relDir ++ js "/" ++ name

/-- `names.sort()`. -/
def sortNames (names : List JsString) : List JsString :=
  names.insertionSort fun first second => first ≤ second

variable (fs : FileSystem)

/-- One name of a directory. -/
def visitName (descend : JsString → WalkState → WalkState) (relDir : JsString) (state : WalkState)
    (name : JsString) : WalkState :=
  if name ∈ SKIP_DIRS then
    state
  else if MAX_ENTRIES < state.entries then
    state
  else
    let rel := joinName relDir name
    match fs.isDirectory rel with
    | none => { state with entries := state.entries + 1 }
    | some false => ⟨state.entries + 1, state.visits ++ [(rel, false)]⟩
    | some true => descend rel ⟨state.entries + 1, state.visits ++ [(rel, true)]⟩

/-- `walk`, with the number of levels above the depth at which it stops. -/
def walk : Nat → JsString → WalkState → WalkState
  | 0, _, state => state
  | levels + 1, relDir, state =>
      if MAX_ENTRIES < state.entries then
        state
      else
        match fs.readdir relDir with
        | none => state
        | some names => (sortNames names).foldl (visitName fs (walk levels) relDir) state

/-- The walk from the root. -/
def walkRoot : WalkState :=
  walk fs (MAX_DEPTH + 1) [] ⟨0, []⟩

/-- The first files of a walk that match one of the patterns, sorted. -/
def listMatchingFiles (patterns : List JsString) (limit : Nat) : List JsString :=
  sortNames ((walkRoot fs).visits.foldl (fun out visit =>
    if visit.2 = false ∧ out.length < limit ∧ globMatchAny patterns visit.1 = true then
      out ++ [visit.1]
    else
      out) [])

/-! ## All entries -/

/-- An entry that is counted: its path, and what it is, if that is known. -/
abbrev WalkEntry := JsString × Option Bool

/-- The entries of a directory down to a level, each directory before what is in it. -/
def preorder : Nat → JsString → List WalkEntry
  | 0, _ => []
  | levels + 1, relDir =>
      ((sortNames ((fs.readdir relDir).getD [])).filter fun name => name ∉ SKIP_DIRS).flatMap
        fun name =>
          let rel := joinName relDir name
          (rel, fs.isDirectory rel) ::
            if fs.isDirectory rel = some true then preorder levels rel else []

/-- The visit of an entry, if it is known what it is. -/
def visitOf (entry : WalkEntry) : Option (JsString × Bool) :=
  entry.2.map fun isDir => (entry.1, isDir)

/-- The state after more entries. -/
def WalkState.extend (state : WalkState) (entries : List WalkEntry) : WalkState :=
  ⟨state.entries + entries.length, state.visits ++ entries.filterMap visitOf⟩

/-- The entries that a walk may still count. -/
def WalkState.room (state : WalkState) : Nat :=
  MAX_ENTRIES + 1 - state.entries

theorem WalkState.extend_nil (state : WalkState) : state.extend [] = state := by
  rw [extend, List.filterMap_nil, List.append_nil]
  rfl

theorem WalkState.extend_extend (state : WalkState) (first second : List WalkEntry) :
    (state.extend first).extend second = state.extend (first ++ second) := by
  simp only [extend, List.length_append, List.filterMap_append, Nat.add_assoc, List.append_assoc]

theorem WalkState.room_extend (state : WalkState) (entries : List WalkEntry) :
    (state.extend entries).room = state.room - entries.length := by
  show MAX_ENTRIES + 1 - (state.entries + entries.length) =
    MAX_ENTRIES + 1 - state.entries - entries.length
  omega

/-- What is done on two lists one after the other is done on both of them. -/
theorem WalkState.extend_take (state : WalkState) (first second : List WalkEntry) :
    (state.extend (first.take state.room)).extend
        (second.take (state.extend (first.take state.room)).room) =
      state.extend ((first ++ second).take state.room) := by
  have left : state.room - (first.take state.room).length = state.room - first.length := by
    rw [List.length_take]
    omega
  rw [extend_extend, List.take_append, room_extend, left]

/-- A function that goes on with the entries of a list as long as there is room. -/
def Takes (step : WalkState → WalkState) (entries : List WalkEntry) : Prop :=
  ∀ state, step state = state.extend (entries.take state.room)

theorem takes_nil : Takes (fun state => state) [] := by
  intro state
  rw [List.take_nil, WalkState.extend_nil]

theorem Takes.append {first second : WalkState → WalkState} {entries more : List WalkEntry}
    (takes : Takes first entries) (takesMore : Takes second more) :
    Takes (fun state => second (first state)) (entries ++ more) := by
  intro state
  show second (first state) = _
  rw [takesMore, takes, WalkState.extend_take]

/-- Without room nothing is done. -/
theorem extend_of_full {state : WalkState} (full : MAX_ENTRIES < state.entries)
    (entries : List WalkEntry) : state.extend (entries.take state.room) = state := by
  have none : state.room = 0 := by
    rw [WalkState.room]
    omega
  rw [none, List.take_zero, WalkState.extend_nil]

/-- The entries for a name: itself, and what is in it. -/
def entriesOf (inside : JsString → List WalkEntry) (relDir name : JsString) : List WalkEntry :=
  let rel := joinName relDir name
  (rel, fs.isDirectory rel) :: if fs.isDirectory rel = some true then inside rel else []

variable {fs} {levels : Nat} {descend : JsString → WalkState → WalkState}
  {inside : JsString → List WalkEntry}

theorem takes_visitName (descends : ∀ rel, Takes (descend rel) (inside rel))
    (relDir name : JsString) (listed : name ∉ SKIP_DIRS) :
    Takes (fun state => visitName fs descend relDir state name)
      (entriesOf fs inside relDir name) := by
  intro state
  show visitName fs descend relDir state name = _
  rw [visitName, if_neg listed]
  by_cases full : MAX_ENTRIES < state.entries
  · rw [if_pos full, extend_of_full full]
  rw [if_neg full, entriesOf]
  have one : ∃ rest, state.room = rest + 1 := by
    refine ⟨MAX_ENTRIES - state.entries, ?_⟩
    rw [WalkState.room]
    omega
  obtain ⟨rest, room⟩ := one
  cases kind : fs.isDirectory (joinName relDir name) with
  | none =>
      simp [room, kind, WalkState.extend, visitOf]
  | some isDir =>
      cases isDir with
      | false => simp [room, kind, WalkState.extend, visitOf]
      | true =>
          dsimp only
          rw [descends, kind, if_pos rfl, room, List.take_succ_cons]
          have left : WalkState.room ⟨state.entries + 1,
              state.visits ++ [(joinName relDir name, true)]⟩ = rest := by
            rw [WalkState.room] at room ⊢
            dsimp only
            omega
          rw [left]
          simp only [WalkState.extend, List.filterMap_cons, visitOf, Option.map_some,
            List.length_cons, List.append_assoc, List.singleton_append, WalkState.mk.injEq,
            and_true]
          omega

theorem takes_names (descends : ∀ rel, Takes (descend rel) (inside rel)) (relDir : JsString)
    (names : List JsString) :
    Takes (fun state => names.foldl (visitName fs descend relDir) state)
      ((names.filter fun name => name ∉ SKIP_DIRS).flatMap (entriesOf fs inside relDir)) := by
  induction names with
  | nil => exact takes_nil
  | cons name names inductionHypothesis =>
      by_cases listed : name ∉ SKIP_DIRS
      · rw [List.filter_cons_of_pos (by simpa using listed), List.flatMap_cons]
        exact (takes_visitName descends relDir name listed).append inductionHypothesis
      · intro state
        show names.foldl (visitName fs descend relDir) (visitName fs descend relDir state name) = _
        rw [List.filter_cons_of_neg (by simpa using listed), visitName, if_pos (not_not.mp listed)]
        exact inductionHypothesis state

/-- A walk takes the entries in preorder while it has room for more. -/
theorem takes_walk (levels : Nat) :
    ∀ relDir, Takes (walk fs levels relDir) (preorder fs levels relDir) := by
  induction levels with
  | zero =>
      intro relDir state
      rw [walk, preorder, List.take_nil, WalkState.extend_nil]
  | succ levels inductionHypothesis =>
      intro relDir state
      rw [walk]
      by_cases full : MAX_ENTRIES < state.entries
      · rw [if_pos full, extend_of_full full]
      rw [if_neg full, preorder]
      cases listed : fs.readdir relDir with
      | none =>
          have empty : sortNames [] = [] := rfl
          dsimp only
          rw [Option.getD_none, empty, List.filter_nil, List.flatMap_nil, List.take_nil,
            WalkState.extend_nil]
      | some names => exact takes_names inductionHypothesis relDir (sortNames names) state

theorem walkRoot_eq (fs : FileSystem) :
    walkRoot fs = WalkState.extend ⟨0, []⟩
      ((preorder fs (MAX_DEPTH + 1) []).take (MAX_ENTRIES + 1)) :=
  takes_walk (MAX_DEPTH + 1) [] ⟨0, []⟩

/-! ## The entries of a tree -/

/-- The path is in the directory, at most some levels down, and no directory on the way is one
that is left out. -/
inductive Within (fs : FileSystem) : Nat → JsString → JsString → Prop
  | entry {levels : Nat} {relDir name : JsString}
      (listed : name ∈ (fs.readdir relDir).getD []) (walked : name ∉ SKIP_DIRS) :
      Within fs (levels + 1) relDir (joinName relDir name)
  | deeper {levels : Nat} {relDir name path : JsString}
      (listed : name ∈ (fs.readdir relDir).getD []) (walked : name ∉ SKIP_DIRS)
      (directory : fs.isDirectory (joinName relDir name) = some true)
      (inside : Within fs levels (joinName relDir name) path) :
      Within fs (levels + 1) relDir path

theorem mem_walkedNames {names : List JsString} {name : JsString} :
    name ∈ (sortNames names).filter (fun name => name ∉ SKIP_DIRS) ↔
      name ∈ names ∧ name ∉ SKIP_DIRS := by
  rw [List.mem_filter, sortNames, List.mem_insertionSort, decide_eq_true_eq]

/-- The entries are the paths within the directory, each with what it is. -/
theorem mem_preorder {levels : Nat} {relDir path : JsString} {kind : Option Bool} :
    (path, kind) ∈ preorder fs levels relDir ↔
      Within fs levels relDir path ∧ kind = fs.isDirectory path := by
  constructor
  · intro member
    induction levels generalizing relDir with
    | zero => cases member
    | succ levels inductionHypothesis =>
        rw [preorder, List.mem_flatMap] at member
        obtain ⟨name, named, inside⟩ := member
        obtain ⟨listed, walked⟩ := mem_walkedNames.mp named
        rcases List.mem_cons.mp inside with same | below
        · cases same
          exact ⟨.entry listed walked, rfl⟩
        · split_ifs at below with directory
          · obtain ⟨within, same⟩ := inductionHypothesis below
            exact ⟨.deeper listed walked directory within, same⟩
          · cases below
  · intro both
    obtain ⟨within, rfl⟩ := both
    induction within with
    | entry listed walked =>
        rw [preorder, List.mem_flatMap]
        exact ⟨_, mem_walkedNames.mpr ⟨listed, walked⟩, List.mem_cons_self⟩
    | deeper listed walked directory inside inductionHypothesis =>
        rw [preorder, List.mem_flatMap]
        refine ⟨_, mem_walkedNames.mpr ⟨listed, walked⟩, List.mem_cons_of_mem _ ?_⟩
        rw [if_pos directory]
        exact inductionHypothesis

/-- Two file systems with the same entries, which they may list in another order. -/
structure SameTree (fs other : FileSystem) : Prop where
  listed : ∀ relDir, ((fs.readdir relDir).getD []).Perm ((other.readdir relDir).getD [])
  kinds : fs.isDirectory = other.isDirectory

theorem sortNames_eq_of_perm {names other : List JsString} (perm : names.Perm other) :
    sortNames names = sortNames other := by
  have sorted : ∀ names : List JsString, (sortNames names).SortedLE :=
    fun _ => List.sortedLE_insertionSort
  refine List.Perm.eq_of_sortedLE (sorted names) (sorted other) ?_
  exact ((List.perm_insertionSort _ names).trans perm).trans (List.perm_insertionSort _ other).symm

theorem SameTree.preorder {other : FileSystem} (same : SameTree fs other) (levels : Nat) :
    ∀ relDir, preorder fs levels relDir = preorder other levels relDir := by
  induction levels with
  | zero => exact fun _ => rfl
  | succ levels inductionHypothesis =>
      intro relDir
      rw [Repo.preorder, Repo.preorder, sortNames_eq_of_perm (same.listed relDir), same.kinds]
      simp only [inductionHypothesis]

theorem SameTree.walkRoot {other : FileSystem} (same : SameTree fs other) :
    walkRoot fs = walkRoot other := by
  rw [walkRoot_eq, walkRoot_eq, same.preorder]

/-- A walk visits the first entries of the tree in preorder, up to its bounds, in whatever order
the directories are listed. -/
theorem walkRoot_exact (fs : FileSystem) :
    (walkRoot fs).entries =
      min (MAX_ENTRIES + 1) (preorder fs (MAX_DEPTH + 1) []).length ∧
    (walkRoot fs).visits =
      ((preorder fs (MAX_DEPTH + 1) []).take (MAX_ENTRIES + 1)).filterMap visitOf ∧
    (∀ path kind, (path, kind) ∈ preorder fs (MAX_DEPTH + 1) [] ↔
      Within fs (MAX_DEPTH + 1) [] path ∧ kind = fs.isDirectory path) ∧
    ∀ other, SameTree fs other → walkRoot fs = walkRoot other := by
  refine ⟨?_, ?_, fun _ _ => mem_preorder, fun _ same => same.walkRoot⟩
  · rw [walkRoot_eq, WalkState.extend, List.length_take]
    exact Nat.zero_add _
  · rw [walkRoot_eq, WalkState.extend]
    exact List.nil_append _

/-- Some files in the root. -/
def filesOnly (names : List JsString) : FileSystem where
  readdir relDir := if relDir = [] then some names else none
  isDirectory _ := some false

theorem sameTree_filesOnly {names other : List JsString} (perm : names.Perm other) :
    SameTree (filesOnly names) (filesOnly other) := by
  refine ⟨fun relDir => ?_, rfl⟩
  rw [filesOnly, filesOnly]
  dsimp only
  split_ifs
  · exact perm
  · exact .nil

theorem walkRoot_exact_swapped :
    walkRoot (filesOnly [js "b.ts", js "a.ts"]) = walkRoot (filesOnly [js "a.ts", js "b.ts"]) :=
  (walkRoot_exact (filesOnly [js "b.ts", js "a.ts"])).2.2.2 _ (sameTree_filesOnly (.swap _ _ _))

/-! ## Paths are told apart -/

/-- Names as a file system has them. -/
structure PlainNames (fs : FileSystem) : Prop where
  distinct : ∀ relDir, ((fs.readdir relDir).getD []).Nodup
  nonempty : ∀ relDir, [] ∉ (fs.readdir relDir).getD []
  slashless : ∀ relDir, ∀ name ∈ (fs.readdir relDir).getD [], unit '/' ∉ name

/-- What stands before a name in a directory. -/
def lead (relDir : JsString) : JsString :=
  if relDir = [] then [] else relDir ++ js "/"

theorem joinName_eq (relDir name : JsString) : joinName relDir name = lead relDir ++ name := by
  rw [joinName, lead]
  split_ifs <;> rfl

/-- The text ends, or goes on with a slash. -/
def AtBorder (text : JsString) : Prop :=
  text = [] ∨ ∃ rest, text = js "/" ++ rest

theorem takeWhile_name {name text : JsString} (slashless : unit '/' ∉ name)
    (border : AtBorder text) : (name ++ text).takeWhile (· ≠ unit '/') = name := by
  have kept : ∀ code ∈ name, (decide (code ≠ unit '/')) = true := by
    intro code member
    rw [decide_eq_true_eq]
    rintro rfl
    exact slashless member
  rw [List.takeWhile_append_of_pos kept]
  rcases border with rfl | ⟨rest, rfl⟩
  · rw [List.takeWhile_nil, List.append_nil]
  · have stops : (js "/" ++ rest).takeWhile (· ≠ unit '/') = [] := rfl
    rw [stops, List.append_nil]

/-- A path in a directory goes on behind the directory with a slash. -/
theorem Within.behind {relDir path : JsString} (within : Within fs levels relDir path)
    (inner : relDir ≠ []) : ∃ rest, path = relDir ++ (js "/" ++ rest) := by
  induction within with
  | @entry levels relDir name listed walked =>
      refine ⟨name, ?_⟩
      rw [joinName, if_neg inner, List.append_assoc]
  | @deeper levels relDir name path listed walked directory inside inductionHypothesis =>
      have joined : joinName relDir name = relDir ++ (js "/" ++ name) := by
        rw [joinName, if_neg inner, List.append_assoc]
      have nonempty : joinName relDir name ≠ [] := by
        rw [joined]
        exact fun none => inner (List.append_eq_nil_iff.mp none).1
      obtain ⟨rest, same⟩ := inductionHypothesis nonempty
      exact ⟨name ++ (js "/" ++ rest), by rw [same, joined, List.append_assoc, List.append_assoc]⟩

theorem joinName_ne_nil {relDir name : JsString} (nonempty : name ≠ []) :
    joinName relDir name ≠ [] := by
  rw [joinName_eq]
  exact fun none => nonempty (List.append_eq_nil_iff.mp none).2

/-- The paths for a name start with it, up to a border. -/
theorem path_of_entriesOf {relDir name path : JsString} (nonempty : name ≠ [])
    (member : path ∈ (entriesOf fs (preorder fs levels) relDir name).map Prod.fst) :
    ∃ text, AtBorder text ∧ path = lead relDir ++ (name ++ text) := by
  obtain ⟨entry, listed, rfl⟩ := List.mem_map.mp member
  rcases List.mem_cons.mp listed with rfl | inside
  · exact ⟨[], Or.inl rfl, by rw [List.append_nil, joinName_eq]⟩
  · split_ifs at inside with directory
    · have within := (mem_preorder.mp inside).1
      obtain ⟨rest, same⟩ := within.behind (joinName_ne_nil nonempty)
      refine ⟨js "/" ++ rest, Or.inr ⟨rest, rfl⟩, ?_⟩
      rw [same, joinName_eq, List.append_assoc]
    · cases inside

/-- No path is listed twice. -/
theorem nodup_preorder (plain : PlainNames fs) (levels : Nat) :
    ∀ relDir, ((preorder fs levels relDir).map Prod.fst).Nodup := by
  induction levels with
  | zero => exact fun _ => List.nodup_nil
  | succ levels inductionHypothesis =>
      intro relDir
      rw [preorder, List.map_flatMap, List.nodup_flatMap]
      have names : ∀ name ∈ (sortNames ((fs.readdir relDir).getD [])).filter
          (fun name => name ∉ SKIP_DIRS), name ≠ [] ∧ unit '/' ∉ name := by
        intro name member
        have listed := (mem_walkedNames.mp member).1
        have nonempty : name ≠ [] := fun none => plain.nonempty relDir (none ▸ listed)
        exact ⟨nonempty, plain.slashless relDir name listed⟩
      constructor
      · intro name member
        rw [List.map_cons, List.nodup_cons]
        constructor
        · intro again
          obtain ⟨entry, inside, same⟩ := List.mem_map.mp again
          split_ifs at inside with directory
          · have within := (mem_preorder.mp inside).1
            obtain ⟨rest, longer⟩ := within.behind (joinName_ne_nil (names name member).1)
            have equal : joinName relDir name = joinName relDir name ++ (js "/" ++ rest) :=
              same.symm.trans longer
            exact absurd (List.self_eq_append_right.mp equal) (List.cons_ne_nil _ _)
          · cases inside
        · split_ifs with directory
          · exact inductionHypothesis _
          · exact List.nodup_nil
      · have distinct : (sortNames ((fs.readdir relDir).getD [])).Nodup :=
          (List.perm_insertionSort _ _).nodup_iff.mpr (plain.distinct relDir)
        refine (distinct.filter _).imp_of_mem fun {first second} here there different => ?_
        intro path inFirst inSecond
        obtain ⟨text, border, same⟩ := path_of_entriesOf (names first here).1 inFirst
        obtain ⟨otherText, otherBorder, otherSame⟩ :=
          path_of_entriesOf (names second there).1 inSecond
        have equal := List.append_cancel_left (same.symm.trans otherSame)
        have cut := congrArg (List.takeWhile (· ≠ unit '/')) equal
        rw [takeWhile_name (names first here).2 border,
          takeWhile_name (names second there).2 otherBorder] at cut
        exact different cut

/-! ## Matching files -/

/-- The visit is one of a file that matches one of the patterns. -/
def matchesFile (patterns : List JsString) (visit : JsString × Bool) : Bool :=
  !visit.2 && globMatchAny patterns visit.1

/-- The matching files of a walk, in its order. -/
def matchingFiles (fs : FileSystem) (patterns : List JsString) : List JsString :=
  ((walkRoot fs).visits.filter (matchesFile patterns)).map Prod.fst

theorem foldl_matching (patterns : List JsString) (limit : Nat) (visits : List (JsString × Bool))
    (out : List JsString) :
    visits.foldl (fun out visit =>
      if visit.2 = false ∧ out.length < limit ∧ globMatchAny patterns visit.1 = true then
        out ++ [visit.1]
      else
        out) out =
      out ++ ((visits.filter (matchesFile patterns)).map Prod.fst).take (limit - out.length) := by
  induction visits generalizing out with
  | nil => simp
  | cons visit visits inductionHypothesis =>
      rw [List.foldl_cons, inductionHypothesis]
      by_cases hits : matchesFile patterns visit = true
      · rw [List.filter_cons_of_pos hits, List.map_cons]
        rw [matchesFile, Bool.and_eq_true, Bool.not_eq_true'] at hits
        by_cases room : out.length < limit
        · have left : limit - out.length = (limit - (out ++ [visit.1]).length) + 1 := by
            rw [List.length_append, List.length_singleton]
            omega
          rw [if_pos ⟨hits.1, room, hits.2⟩, left, List.take_succ_cons, List.append_assoc]
          rfl
        · have none : limit - out.length = 0 := by omega
          rw [if_neg fun listed => room listed.2.1, none, List.take_zero, List.take_zero]
      · rw [List.filter_cons_of_neg hits, if_neg]
        rintro ⟨file, -, matched⟩
        refine hits ?_
        rw [matchesFile, file, matched]
        rfl

theorem listMatchingFiles_eq (fs : FileSystem) (patterns : List JsString) (limit : Nat) :
    listMatchingFiles fs patterns limit = sortNames ((matchingFiles fs patterns).take limit) := by
  rw [listMatchingFiles, foldl_matching, List.nil_append]
  rfl

theorem mem_visits {path : JsString} {isDir : Bool}
    (visited : (path, isDir) ∈ (walkRoot fs).visits) :
    Within fs (MAX_DEPTH + 1) [] path ∧ fs.isDirectory path = some isDir := by
  rw [(walkRoot_eq fs), WalkState.extend, List.nil_append, List.mem_filterMap] at visited
  obtain ⟨entry, taken, visit⟩ := visited
  obtain ⟨within, kind⟩ := mem_preorder.mp (List.mem_of_mem_take taken)
  rw [visitOf, kind] at visit
  obtain ⟨found, known, same⟩ := Option.map_eq_some_iff.mp visit
  cases same
  exact ⟨within, known⟩

/-- A walk that is not cut off visits every entry of the tree. -/
theorem visits_of_small (small : (preorder fs (MAX_DEPTH + 1) []).length ≤ MAX_ENTRIES + 1)
    {path : JsString} {isDir : Bool} (within : Within fs (MAX_DEPTH + 1) [] path)
    (kind : fs.isDirectory path = some isDir) : (path, isDir) ∈ (walkRoot fs).visits := by
  rw [walkRoot_eq, WalkState.extend, List.nil_append, List.take_of_length_le small,
    List.mem_filterMap]
  exact ⟨(path, some isDir), mem_preorder.mpr ⟨within, kind.symm⟩, rfl⟩

theorem nodup_matchingFiles (plain : PlainNames fs) (patterns : List JsString) :
    (matchingFiles fs patterns).Nodup := by
  have visits : ((walkRoot fs).visits.map Prod.fst).Nodup := by
    rw [walkRoot_eq, WalkState.extend, List.nil_append]
    have all := nodup_preorder plain (MAX_DEPTH + 1) []
    have front := all.sublist ((List.take_sublist (MAX_ENTRIES + 1)
      (preorder fs (MAX_DEPTH + 1) [])).map Prod.fst)
    refine front.sublist ?_
    generalize (preorder fs (MAX_DEPTH + 1) []).take (MAX_ENTRIES + 1) = entries
    induction entries with
    | nil => exact List.Sublist.slnil
    | cons entry entries inductionHypothesis =>
        obtain ⟨path, kind⟩ := entry
        cases kind with
        | none => exact inductionHypothesis.cons _
        | some isDir => exact inductionHypothesis.cons_cons _
  exact visits.sublist (List.filter_sublist.map Prod.fst)

/-- A file of the tree that matches one of the patterns. -/
def Matching (fs : FileSystem) (patterns : List JsString) (path : JsString) : Prop :=
  Within fs (MAX_DEPTH + 1) [] path ∧ fs.isDirectory path = some false ∧
    globMatchAny patterns path = true

theorem mem_matchingFiles {patterns : List JsString} {path : JsString}
    (member : path ∈ matchingFiles fs patterns) : Matching fs patterns path := by
  obtain ⟨visit, listed, rfl⟩ := List.mem_map.mp member
  obtain ⟨visited, hits⟩ := List.mem_filter.mp listed
  obtain ⟨path, isDir⟩ := visit
  rw [matchesFile, Bool.and_eq_true, Bool.not_eq_true'] at hits
  obtain ⟨file, matched⟩ := hits
  dsimp only at file
  subst file
  obtain ⟨within, kind⟩ := mem_visits visited
  exact ⟨within, kind, matched⟩

/-- The list has matching files of the tree only, sorted and each once, and no more than the
limit.  It has all of them where neither the walk nor the list is cut off, and the order in which
directories are listed never shows in it. -/
theorem listMatchingFiles_spec (plain : PlainNames fs) (patterns : List JsString) (limit : Nat) :
    (∀ path ∈ listMatchingFiles fs patterns limit, Matching fs patterns path) ∧
    (listMatchingFiles fs patterns limit).Pairwise (· < ·) ∧
    (listMatchingFiles fs patterns limit).length ≤ limit ∧
    ((preorder fs (MAX_DEPTH + 1) []).length ≤ MAX_ENTRIES + 1 →
      (listMatchingFiles fs patterns limit).length < limit →
      ∀ path, Matching fs patterns path → path ∈ listMatchingFiles fs patterns limit) ∧
    ∀ other, SameTree fs other →
      listMatchingFiles fs patterns limit = listMatchingFiles other patterns limit := by
  rw [listMatchingFiles_eq]
  refine ⟨?_, ?_, ?_, ?_, ?_⟩
  · intro path member
    rw [sortNames, List.mem_insertionSort] at member
    exact mem_matchingFiles (List.mem_of_mem_take member)
  · have distinct : (sortNames ((matchingFiles fs patterns).take limit)).Nodup :=
      (List.perm_insertionSort _ _).nodup_iff.mpr
        ((nodup_matchingFiles plain patterns).sublist (List.take_sublist _ _))
    have sorted : (sortNames ((matchingFiles fs patterns).take limit)).SortedLE :=
      List.sortedLE_insertionSort
    refine (sorted.pairwise.and distinct).imp fun {first second} both => ?_
    exact lt_of_le_of_ne both.1 both.2
  · rw [sortNames, List.length_insertionSort, List.length_take]
    exact Nat.min_le_left _ _
  · intro small short path matching
    rw [sortNames, List.length_insertionSort, List.length_take] at short
    have all : (matchingFiles fs patterns).take limit = matchingFiles fs patterns :=
      List.take_of_length_le (by omega)
    rw [sortNames, List.mem_insertionSort, all]
    obtain ⟨within, kind, matched⟩ := matching
    refine List.mem_map.mpr ⟨(path, false),
      List.mem_filter.mpr ⟨visits_of_small small within kind, ?_⟩, rfl⟩
    rw [matchesFile, matched]
    rfl
  · intro other same
    rw [listMatchingFiles_eq, matchingFiles, matchingFiles, same.walkRoot]

theorem plainNames_filesOnly {names : List JsString} (distinct : names.Nodup)
    (plain : ∀ name ∈ names, name ≠ [] ∧ unit '/' ∉ name) : PlainNames (filesOnly names) := by
  have inside : ∀ relDir name,
      name ∈ ((filesOnly names).readdir relDir).getD [] → name ∈ names := by
    intro relDir name member
    rw [filesOnly] at member
    dsimp only at member
    split_ifs at member
    · exact member
    · cases member
  refine ⟨fun relDir => ?_, fun relDir member => (plain _ (inside relDir _ member)).1 rfl,
    fun relDir name member => (plain name (inside relDir name member)).2⟩
  rw [filesOnly]
  dsimp only
  split_ifs
  · exact distinct
  · exact List.nodup_nil

theorem listMatchingFiles_spec_first :
    listMatchingFiles (filesOnly [js "b.ts", js "a.ts"]) [js "*.ts"] 1 = [js "a.ts"] ∧
      (listMatchingFiles (filesOnly [js "b.ts", js "a.ts"]) [js "*.ts"] 1).length ≤ 1 :=
  ⟨by decide +kernel, (listMatchingFiles_spec
    (plainNames_filesOnly (by decide +kernel) (by decide +kernel)) [js "*.ts"] 1).2.2.1⟩

end SpecAsCode.Repo
