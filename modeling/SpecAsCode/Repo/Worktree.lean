import SpecAsCode.Executor.UnmediatedGuard
import SpecAsCode.Js.OrderedMap

/-!
# Worktrees

A worktree has a committed, a staged and an actual version of every file.  What git prints of
it is read line by line.
-/

namespace SpecAsCode.Repo

open SpecAsCode.Js
open SpecAsCode.Core
open SpecAsCode.Executor
open SpecAsCode.Text

/-- A worktree.  A path that is not listed has no file in any version. -/
structure Worktree where
  /-- `git rev-parse HEAD`, trimmed. -/
  revision : JsString
  head : Tree
  index : Tree
  tree : Tree
  /-- The paths that the ignore rules cover. -/
  ignored : JsString → Bool
  paths : List JsString
  listed : ∀ path, path ∉ paths → head path = none ∧ index path = none ∧ tree path = none

namespace Worktree

theorem listed_put (worktree : Worktree) (path : JsString) (content : Option (List Octet)) :
    ∀ other, other ∉ path :: worktree.paths → worktree.head other = none ∧
      worktree.index other = none ∧
        (if other = path then content else worktree.tree other) = none := by
  intro other outside
  rw [List.mem_cons, not_or] at outside
  rw [if_neg outside.1]
  exact worktree.listed other outside.2

/-- The worktree with the file at a path written, or removed. -/
def put (worktree : Worktree) (path : JsString) (content : Option (List Octet)) : Worktree :=
  { worktree with
    tree := fun other => if other = path then content else worktree.tree other
    paths := path :: worktree.paths
    listed := worktree.listed_put path content }

@[simp]
theorem put_head (worktree : Worktree) (path : JsString) (content : Option (List Octet)) :
    (worktree.put path content).head = worktree.head := rfl

@[simp]
theorem put_index (worktree : Worktree) (path : JsString) (content : Option (List Octet)) :
    (worktree.put path content).index = worktree.index := rfl

@[simp]
theorem put_ignored (worktree : Worktree) (path : JsString) (content : Option (List Octet)) :
    (worktree.put path content).ignored = worktree.ignored := rfl

@[simp]
theorem put_tree_self (worktree : Worktree) (path : JsString) (content : Option (List Octet)) :
    (worktree.put path content).tree path = content :=
  if_pos rfl

theorem put_tree_ne (worktree : Worktree) {path other : JsString} (different : other ≠ path)
    (content : Option (List Octet)) :
    (worktree.put path content).tree other = worktree.tree other :=
  if_neg different

/-- Writing a file of a proposed change is writing it under its normalized path. -/
theorem put_tree_normalized (worktree : Worktree) (path : JsString)
    (content : Option (List Octet)) :
    (worktree.put (normalizeRelPath path) content).tree = worktree.tree.set path content := rfl

end Worktree

/-! ## Names -/

/-- The letter after the backslash for the octets 7 to 13. -/
def escapeLetter (code : Octet) : CodeUnit :=
  ((js "abtnvfr")[code.val - 7]?).getD (unit '0')

/-- How git prints an octet of a name. -/
def quoteOctet (code : Octet) : JsString :=
  if code.val = 34 ∨ code.val = 92 then
    [unit '\\', Fin.ofNat 65536 code.val]
  else if 7 ≤ code.val ∧ code.val ≤ 13 then
    [unit '\\', escapeLetter code]
  else if code.val < 32 ∨ 127 ≤ code.val then
    [unit '\\', Fin.ofNat 65536 (48 + code.val / 64), Fin.ofNat 65536 (48 + code.val / 8 % 8),
      Fin.ofNat 65536 (48 + code.val % 8)]
  else
    [Fin.ofNat 65536 code.val]

/-- A name as git prints it, without the quotes around it. -/
def printedName (path : JsString) : JsString :=
  (encodeUtf8 path).flatMap quoteOctet

/-- A name in the output of `git status`: in quotes if it is not printed as it is, or has a
space in it. -/
def statusField (path : JsString) : JsString :=
  if printedName path = path ∧ unit ' ' ∉ path then
    path
  else
    unit '\x22' :: (printedName path ++ [unit '\x22'])

/-- `p.startsWith('"') && p.endsWith('"') ? p.slice(1, -1) : p`. -/
def stripQuotes (field : JsString) : JsString :=
  if field.head? = some (unit '\x22') ∧ field.getLast? = some (unit '\x22') then
    field.tail.dropLast
  else
    field

example : stripQuotes (statusField (js "src/a b\t.ts")) = js "src/a b\\t.ts" := by decide +kernel

theorem printedName_cons_quote (rest : JsString) :
    (printedName (unit '\x22' :: rest)).head? = some (unit '\\') := by
  have encoded : ∃ octets, encodeUtf8 (unit '\x22' :: rest) = octet 34 :: octets := by
    cases rest with
    | nil => exact ⟨[], rfl⟩
    | cons next rest => exact ⟨encodeUtf8 (next :: rest), rfl⟩
  obtain ⟨octets, encoded⟩ := encoded
  rw [printedName, encoded, List.flatMap_cons]
  rfl

/-- The quotes are taken off again. -/
theorem stripQuotes_statusField (path : JsString) :
    stripQuotes (statusField path) = printedName path := by
  rw [statusField]
  split
  · next plain =>
      rw [stripQuotes, if_neg, plain.1]
      rintro ⟨first, -⟩
      cases path with
      | nil => cases first
      | cons code rest =>
          cases first
          have quoted := printedName_cons_quote rest
          rw [plain.1, List.head?_cons, Option.some.injEq] at quoted
          exact absurd quoted (by decide)
  · rw [stripQuotes, ← List.cons_append, if_pos ⟨rfl, List.getLast?_concat⟩, List.cons_append,
      List.tail_cons, List.dropLast_concat]

/-! ## Status -/

/-- How git pairs the paths that are gone with the paths that are new. -/
structure RenameDetection where
  pairs : Tree → Tree → List (JsString × JsString)
  sound : ∀ old new pair, pair ∈ pairs old new → old pair.1 ≠ none ∧ new pair.1 = none ∧
    old pair.2 = none ∧ new pair.2 ≠ none

/-- The letter for a file in an old and a new version. -/
def changeLetter : Option (List Octet) → Option (List Octet) → CodeUnit
  | none, none => unit ' '
  | none, some _ => unit 'A'
  | some _, none => unit 'D'
  | some old, some new => if old = new then unit ' ' else unit 'M'

theorem changeLetter_eq_space {old new : Option (List Octet)} :
    changeLetter old new = unit ' ' ↔ old = new := by
  have added : unit 'A' ≠ unit ' ' := by decide
  have deleted : unit 'D' ≠ unit ' ' := by decide
  have modified : unit 'M' ≠ unit ' ' := by decide
  cases old with
  | none => cases new <;> simp [changeLetter, added]
  | some old =>
      cases new with
      | none => simp [changeLetter, deleted]
      | some new =>
          by_cases same : old = new
          · simp [changeLetter, same]
          · simp [changeLetter, same, modified]

namespace Worktree

variable (renames : RenameDetection) (worktree : Worktree)

/-- The letter for the staged version of a path. -/
def stagedLetter (path : JsString) : CodeUnit :=
  changeLetter (worktree.head path) (worktree.index path)

/-- The letter for the actual version of a path that is in the index. -/
def unstagedLetter (path : JsString) : CodeUnit :=
  if worktree.index path = none then
    unit ' '
  else
    changeLetter (worktree.index path) (worktree.tree path)

/-- The line for a path that is committed or staged: its name and its letters. -/
def trackedLine (path : JsString) : Option (JsString × JsString) :=
  let pairs := renames.pairs worktree.head worktree.index
  if pairs.any fun pair => pair.1 = path then
    none
  else
    match pairs.find? fun pair => pair.2 = path with
    | some pair =>
        some (stripQuotes (statusField pair.1 ++ js " -> " ++ statusField path),
          [unit 'R', worktree.unstagedLetter path])
    | none =>
        if worktree.stagedLetter path = unit ' ' ∧ worktree.unstagedLetter path = unit ' ' then
          none
        else
          some (stripQuotes (statusField path),
            [worktree.stagedLetter path, worktree.unstagedLetter path])

/-- The path is a file that is neither staged nor ignored. -/
def isUntracked (path : JsString) : Bool :=
  (worktree.index path).isNone && (worktree.tree path).isSome && !worktree.ignored path

def untrackedLine (path : JsString) : Option (JsString × JsString) :=
  if worktree.isUntracked path then some (stripQuotes (statusField path), js "??") else none

/-- `git status --porcelain -uall`: the name and the letters of every line. -/
def statusLines : List (JsString × JsString) :=
  worktree.paths.filterMap (worktree.trackedLine renames) ++
    worktree.paths.filterMap worktree.untrackedLine

/-- `statusPorcelain`: the letters by name. -/
def statusPorcelain : OrderedMap JsString JsString :=
  OrderedMap.ofEntries (worktree.statusLines renames)

/-- What the submission guard sees.  The delta between revisions is asked for only where paths
are protected, which is never in an attempt. -/
def view : GitView where
  head := some worktree.revision
  delta _ := none
  status := some ((worktree.statusPorcelain renames).entries.map Prod.fst)
  read path := (worktree.tree path).map decodeUtf8

/-- The file is not as it was committed, and git shows it. -/
def Dirty (path : JsString) : Prop :=
  worktree.tree path ≠ worktree.head path ∧
    ¬ (worktree.head path = none ∧ worktree.ignored path = true)

variable {renames worktree}

/-- Nothing is renamed where nothing is staged. -/
theorem pairs_eq_nil (unstaged : worktree.index = worktree.head) :
    renames.pairs worktree.head worktree.index = [] := by
  rw [unstaged, List.eq_nil_iff_forall_not_mem]
  intro pair member
  obtain ⟨present, absent, -, -⟩ := renames.sound _ _ pair member
  exact present absent

theorem trackedLine_of_unstaged (unstaged : worktree.index = worktree.head) (path : JsString) :
    worktree.trackedLine renames path =
      if worktree.head path = none ∨ worktree.tree path = worktree.head path then none
      else some (printedName path,
        [unit ' ', changeLetter (worktree.head path) (worktree.tree path)]) := by
  have staged : worktree.stagedLetter path = unit ' ' := by
    rw [stagedLetter, unstaged, changeLetter_eq_space]
  rw [trackedLine, pairs_eq_nil unstaged, List.any_nil, if_neg Bool.false_ne_true,
    List.find?_nil, staged, stripQuotes_statusField, unstagedLetter, unstaged]
  by_cases absent : worktree.head path = none
  · rw [if_pos absent, if_pos ⟨rfl, rfl⟩, if_pos (Or.inl absent)]
  · simp only [absent, if_false, false_or, true_and, changeLetter_eq_space,
      @eq_comm _ (worktree.head path)]

/-- The names that git lists where nothing is staged. -/
theorem mem_status_of_unstaged (unstaged : worktree.index = worktree.head) {name : JsString} :
    name ∈ (worktree.statusPorcelain renames).entries.map Prod.fst ↔
      ∃ path, worktree.Dirty path ∧ name = printedName path := by
  rw [statusPorcelain, OrderedMap.mem_keys_ofEntries, statusLines, List.map_append,
    List.mem_append]
  constructor
  · rintro (tracked | untracked)
    · obtain ⟨line, member, rfl⟩ := List.mem_map.mp tracked
      obtain ⟨path, -, shown⟩ := List.mem_filterMap.mp member
      rw [trackedLine_of_unstaged unstaged] at shown
      split at shown
      · cases shown
      · next changed =>
          cases shown
          rw [not_or] at changed
          exact ⟨path, ⟨changed.2, fun absent => changed.1 absent.1⟩, rfl⟩
    · obtain ⟨line, member, rfl⟩ := List.mem_map.mp untracked
      obtain ⟨path, -, shown⟩ := List.mem_filterMap.mp member
      rw [untrackedLine] at shown
      split at shown
      · next found =>
          cases shown
          simp only [isUntracked, Bool.and_eq_true, Option.isNone_iff_eq_none,
            Option.isSome_iff_ne_none, Bool.not_eq_true', unstaged] at found
          obtain ⟨⟨absent, present⟩, shown⟩ := found
          refine ⟨path, ⟨?_, ?_⟩, stripQuotes_statusField path⟩
          · rw [absent]
            exact present
          · rw [shown]
            exact fun hidden => Bool.false_ne_true hidden.2
      · cases shown
  · rintro ⟨path, ⟨changed, shown⟩, rfl⟩
    have member : path ∈ worktree.paths := by
      by_contra outside
      obtain ⟨committed, -, actual⟩ := worktree.listed path outside
      exact changed (actual.trans committed.symm)
    by_cases absent : worktree.head path = none
    · refine Or.inr (List.mem_map.mpr ⟨(printedName path, js "??"), ?_, rfl⟩)
      refine List.mem_filterMap.mpr ⟨path, member, ?_⟩
      have untracked : worktree.isUntracked path = true := by
        have visible : worktree.ignored path = false := by
          rw [← Bool.not_eq_true]
          exact fun hidden => shown ⟨absent, hidden⟩
        rw [absent] at changed
        simp [isUntracked, unstaged, absent, visible, Option.isSome_iff_ne_none, changed]
      rw [untrackedLine, if_pos untracked, stripQuotes_statusField]
    · refine Or.inl (List.mem_map.mpr ⟨(printedName path,
        [unit ' ', changeLetter (worktree.head path) (worktree.tree path)]), ?_, rfl⟩)
      refine List.mem_filterMap.mpr ⟨path, member, ?_⟩
      rw [trackedLine_of_unstaged unstaged, if_neg (by tauto)]

end Worktree

end SpecAsCode.Repo
