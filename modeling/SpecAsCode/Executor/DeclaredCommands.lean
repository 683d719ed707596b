import SpecAsCode.Executor.Commands
import SpecAsCode.Repo.Content
import SpecAsCode.Runtime.TaskRevisions

/-!
# Declared commands

A command may change the paths of its touch-set.  What it has changed is the delta of two content
snapshots, and the changes that it had no right to are reverted.
-/

namespace SpecAsCode.Executor

open SpecAsCode.Js
open SpecAsCode.Core
open SpecAsCode.Repo
open SpecAsCode.Runtime.Committing (newFiles noRenames revertPath revertPaths)
open SpecAsCode.Text
open SpecAsCode.Verifier (CommandRunResult)

/-! ## Names without a backslash -/

theorem quoteOctet_plain {code : Octet} (plain : unit '\\' ∉ quoteOctet code) :
    code.val < 127 ∧ quoteOctet code = [Fin.ofNat 65536 code.val] := by
  rw [quoteOctet] at plain ⊢
  split_ifs at plain ⊢ with mark letter digits
  · exact absurd List.mem_cons_self plain
  · exact absurd List.mem_cons_self plain
  · exact absurd List.mem_cons_self plain
  · exact ⟨by omega, rfl⟩

theorem length_quoteOctet_pos (code : Octet) : 1 ≤ (quoteOctet code).length := by
  rw [quoteOctet]
  split_ifs <;> simp

theorem length_flatMap_quoteOctet (octets : List Octet) :
    octets.length ≤ (octets.flatMap quoteOctet).length := by
  induction octets with
  | nil => exact Nat.le_refl _
  | cons code octets inductionHypothesis =>
      have first := length_quoteOctet_pos code
      rw [List.flatMap_cons, List.length_append, List.length_cons]
      omega

/-- A code point that is printed without a backslash is an ASCII character. -/
theorem printedPoint_plain {point : Nat} (bounded : point < 0x110000)
    (plain : unit '\\' ∉ (encodePoint point).flatMap quoteOctet) :
    point < 0x80 ∧ (encodePoint point).flatMap quoteOctet = [Fin.ofNat 65536 point] := by
  have lead : ∀ (value : Nat) (rest : List Octet), 127 ≤ value → value < 256 →
      unit '\\' ∈ (octet value :: rest).flatMap quoteOctet := by
    intro value rest large small
    by_contra absent
    rw [List.flatMap_cons, List.mem_append, not_or] at absent
    have ascii := (quoteOctet_plain absent.1).1
    rw [octet_val small] at ascii
    omega
  rw [encodePoint] at plain ⊢
  split_ifs at plain ⊢ with ascii two three
  · rw [List.flatMap_cons, List.flatMap_nil, List.append_nil] at plain ⊢
    have printed := (quoteOctet_plain plain).2
    rw [octet_val (by omega)] at printed
    exact ⟨ascii, printed⟩
  · exact absurd (lead _ _ (by omega) (by omega)) plain
  · exact absurd (lead _ _ (by omega) (by omega)) plain
  · exact absurd (lead _ _ (by omega) (by omega)) plain

theorem encodeUnit_point (code : CodeUnit) :
    ∃ point, point < 0x10000 ∧ encodeUnit code = encodePoint point ∧
      (point < 0x80 → point = code.val) := by
  rw [encodeUnit]
  refine ⟨_, ?_, rfl, ?_⟩
  · split_ifs
    · decide
    · exact code.isLt
  · intro ascii
    split_ifs at ascii ⊢
    · exact absurd ascii (by decide)
    · rfl

theorem printedUnit_plain {code : CodeUnit}
    (plain : unit '\\' ∉ (encodeUnit code).flatMap quoteOctet) :
    (encodeUnit code).flatMap quoteOctet = [code] := by
  obtain ⟨point, bounded, encoded, ascii⟩ := encodeUnit_point code
  rw [encoded] at plain ⊢
  obtain ⟨small, printed⟩ := printedPoint_plain (by omega) plain
  rw [printed, ascii small, Fin.ofNat_val_eq_self]

theorem pairPoint_bounds {high low : CodeUnit}
    (pair : (isHighSurrogate high && isLowSurrogate low) = true) :
    0x10000 ≤ pairPoint high low ∧ pairPoint high low < 0x110000 := by
  simp only [isHighSurrogate, isLowSurrogate, Bool.and_eq_true, decide_eq_true_eq] at pair
  unfold pairPoint
  omega

/-- A name that is printed without a backslash is printed as it is. -/
theorem printedName_of_plain {path : JsString} (plain : unit '\\' ∉ printedName path) :
    printedName path = path := by
  rw [printedName] at plain ⊢
  induction path using encodeUtf8.induct with
  | case1 => rfl
  | case2 code =>
      rw [encodeUtf8] at plain ⊢
      exact printedUnit_plain plain
  | case3 first second rest pair inductionHypothesis =>
      rw [encodeUtf8, if_pos pair, List.flatMap_append, List.mem_append, not_or] at plain
      obtain ⟨large, bounded⟩ := pairPoint_bounds pair
      have small := (printedPoint_plain bounded plain.1).1
      omega
  | case4 first second rest single inductionHypothesis =>
      rw [encodeUtf8, if_neg single, List.flatMap_append, List.mem_append, not_or] at plain
      rw [encodeUtf8, if_neg single, List.flatMap_append, printedUnit_plain plain.1,
        inductionHypothesis plain.2]
      rfl

theorem length_printedPoint (point : Nat) :
    1 ≤ ((encodePoint point).flatMap quoteOctet).length := by
  refine Nat.le_trans ?_ (length_flatMap_quoteOctet _)
  rw [encodePoint]
  split_ifs <;> simp

theorem length_printedUnit (code : CodeUnit) :
    1 + [code].count (unit '\\') ≤ ((encodeUnit code).flatMap quoteOctet).length := by
  by_cases backslash : code = unit '\\'
  · subst backslash
    decide
  · rw [List.count_singleton, if_neg (by simpa using backslash)]
    obtain ⟨point, -, encoded, -⟩ := encodeUnit_point code
    rw [encoded]
    exact length_printedPoint point

/-- A backslash in a name is printed as two. -/
theorem length_printedName (path : JsString) :
    path.length + path.count (unit '\\') ≤ (printedName path).length := by
  rw [printedName]
  induction path using encodeUtf8.induct with
  | case1 => decide
  | case2 code =>
      rw [encodeUtf8]
      exact length_printedUnit code
  | case3 first second rest pair inductionHypothesis =>
      have four : 2 ≤ ((encodePoint (pairPoint first second)).flatMap quoteOctet).length := by
        refine Nat.le_trans ?_ (length_flatMap_quoteOctet _)
        obtain ⟨large, bounded⟩ := pairPoint_bounds pair
        rw [encodePoint, if_neg (by omega), if_neg (by omega), if_neg (by omega)]
        simp only [List.length_cons]
        omega
      rw [Bool.and_eq_true] at pair
      have high : first ≠ unit '\\' := by
        rintro rfl
        exact absurd pair.1 (by decide)
      have low : second ≠ unit '\\' := by
        rintro rfl
        exact absurd pair.2 (by decide)
      rw [encodeUtf8, if_pos (by rw [pair.1, pair.2]; rfl), List.flatMap_append, List.length_append,
        List.count_cons_of_ne high, List.count_cons_of_ne low, List.length_cons, List.length_cons]
      omega
  | case4 first second rest single inductionHypothesis =>
      have head := length_printedUnit first
      have counted : (first :: second :: rest).count (unit '\\') =
          [first].count (unit '\\') + (second :: rest).count (unit '\\') := by
        rw [← List.singleton_append, List.count_append]
      rw [encodeUtf8, if_neg single, List.flatMap_append, List.length_append, List.length_cons,
        counted]
      omega

/-- A name that is printed as it is, is not printed for another path. -/
theorem eq_of_printedName {path other : JsString} (verbatim : printedName path = path)
    (same : printedName other = path) : other = path := by
  have bound := length_printedName path
  rw [verbatim] at bound
  have none : path.count (unit '\\') = 0 := by omega
  have plain : unit '\\' ∉ printedName other := by
    rw [same]
    exact List.count_eq_zero.mp none
  rw [← printedName_of_plain plain, same]

/-! ## Snapshots -/

section Snapshots

variable {renames : RenameDetection} {checkout : Checkout} {path : JsString}

/-- The names of the paths that are not tracked. -/
theorem mem_untrackedNames (verbatim : printedName path = path) :
    path ∈ (checkout.paths.filterMap checkout.untrackedEntry).map Prod.fst ↔
      checkout.isUntracked path = true := by
  constructor
  · intro member
    obtain ⟨entry, listed, named⟩ := List.mem_map.mp member
    obtain ⟨other, -, entered⟩ := List.mem_filterMap.mp listed
    rw [Checkout.untrackedEntry] at entered
    split_ifs at entered with untracked
    cases entered
    dsimp only at named
    rw [stripQuotes_statusField] at named
    rw [← eq_of_printedName verbatim named]
    exact untracked
  · intro untracked
    have listed : path ∈ checkout.paths := by
      by_contra absent
      have gone := (checkout.listed path absent).2.2
      rw [Worktree.isUntracked, gone] at untracked
      simp at untracked
    refine List.mem_map.mpr ⟨(path, checkout.fileIdentity path),
      List.mem_filterMap.mpr ⟨path, listed, ?_⟩, rfl⟩
    rw [Checkout.untrackedEntry, if_pos untracked, stripQuotes_statusField, verbatim]

/-- `git diff` shows the path, and not as the source of a rename. -/
def ShownRaw (renames : RenameDetection) (checkout : Checkout) (path : JsString) : Prop :=
  checkout.Changed path ∧ ¬ checkout.MovedAway renames path

instance decidableShownRaw (renames : RenameDetection) (checkout : Checkout) (path : JsString) :
    Decidable (ShownRaw renames checkout path) :=
  inferInstanceAs (Decidable (_ ∧ _))

theorem mem_rawNames (verbatim : printedName path = path) :
    path ∈ (checkout.paths.filterMap (checkout.rawEntry renames)).map Prod.fst ↔
      ShownRaw renames checkout path := by
  constructor
  · intro member
    obtain ⟨entry, listed, named⟩ := List.mem_map.mp member
    obtain ⟨other, -, entered⟩ := List.mem_filterMap.mp listed
    rw [Checkout.rawEntry] at entered
    split_ifs at entered with shown
    cases entered
    subst named
    exact ⟨shown.1, shown.2.1⟩
  · intro shown
    have listed : path ∈ checkout.paths := by
      by_contra absent
      obtain ⟨committed, staged, -⟩ := checkout.listed path absent
      have missing : checkout.compared path = none := if_pos staged
      rcases shown.1 with differs | ⟨present, -⟩
      · exact differs (committed.trans missing.symm)
      · exact present missing
    refine List.mem_map.mpr ⟨(path, checkout.rawIdentity path),
      List.mem_filterMap.mpr ⟨path, listed, ?_⟩, rfl⟩
    rw [Checkout.rawEntry, if_pos ⟨shown.1, shown.2, verbatim⟩]

/-- What a snapshot has under a name that git prints as it is. -/
theorem get?_contentSnapshot (verbatim : printedName path = path) :
    (checkout.contentSnapshot renames).get? path =
      if checkout.isUntracked path then some (checkout.fileIdentity path)
      else if ShownRaw renames checkout path then some (checkout.rawIdentity path)
      else none := by
  have untracked : ∀ entry ∈ (checkout.paths.filterMap checkout.untrackedEntry).reverse,
      entry.2 = checkout.fileIdentity entry.1 := by
    intro entry member
    obtain ⟨other, -, entered⟩ := List.mem_filterMap.mp (List.mem_reverse.mp member)
    rw [Checkout.untrackedEntry] at entered
    split_ifs at entered
    cases entered
    rfl
  have raw : ∀ entry ∈ (checkout.paths.filterMap (checkout.rawEntry renames)).reverse,
      entry.2 = checkout.rawIdentity entry.1 := by
    intro entry member
    obtain ⟨other, -, entered⟩ := List.mem_filterMap.mp (List.mem_reverse.mp member)
    rw [Checkout.rawEntry] at entered
    split_ifs at entered
    cases entered
    rfl
  rw [Checkout.contentSnapshot, OrderedMap.get?_ofEntries, List.reverse_append, List.find?_append,
    Option.map_or, OrderedMap.find?_of_function untracked, OrderedMap.find?_of_function raw]
  simp only [List.map_reverse, List.mem_reverse, mem_untrackedNames verbatim,
    mem_rawNames verbatim]
  by_cases isUntracked : checkout.isUntracked path = true
  · rw [if_pos isUntracked, if_pos isUntracked]
    rfl
  · rw [if_neg isUntracked, if_neg isUntracked]
    rfl

/-- Git shows what happens to the path. -/
structure Visible (renames : RenameDetection) (checkout : Checkout) (path : JsString) : Prop where
  noticed : checkout.ignored path = false
  readable : checkout.readable path = true
  inPlace : ¬ checkout.MovedAway renames path

/-- The content that an identity stands for, with the committed one where there is none. -/
def shownContent (committed : Option (List Octet)) : Option ContentIdentity → Option (List Octet)
  | none => committed
  | some (.blob content) => some content
  | some (.hashed content) => some content
  | some _ => none

theorem rawIdentity_content (visible : Visible renames checkout path) :
    shownContent (checkout.head path) (some (checkout.rawIdentity path)) =
      checkout.compared path := by
  rw [Checkout.rawIdentity]
  cases checkout.compared path with
  | none => rfl
  | some content =>
      dsimp only
      have readable : ¬ checkout.readable path = false := by
        rw [visible.readable]
        decide
      rw [if_neg readable]
      split_ifs <;> rfl

/-- A snapshot tells the content of a visible path. -/
theorem tree_eq_shownContent (verbatim : printedName path = path)
    (visible : Visible renames checkout path) :
    checkout.tree path =
      shownContent (checkout.head path) ((checkout.contentSnapshot renames).get? path) := by
  rw [get?_contentSnapshot verbatim]
  by_cases untracked : checkout.isUntracked path = true
  · rw [if_pos untracked, Checkout.fileIdentity]
    simp only [Worktree.isUntracked, Bool.and_eq_true, Option.isSome_iff_exists] at untracked
    obtain ⟨⟨-, content, present⟩, -⟩ := untracked
    simp only [present, visible.readable, if_true]
    rfl
  rw [if_neg untracked]
  -- a path that is not in the index and not untracked has no file
  have compared : checkout.compared path = checkout.tree path := by
    rw [Checkout.compared]
    by_cases staged : checkout.index path = none
    · rw [if_pos staged]
      cases present : checkout.tree path with
      | none => rfl
      | some content =>
          refine absurd ?_ untracked
          rw [Worktree.isUntracked, staged, present, visible.noticed]
          rfl
    · rw [if_neg staged]
  by_cases shown : ShownRaw renames checkout path
  · rw [if_pos shown, rawIdentity_content visible, compared]
  · rw [if_neg shown, shownContent, ← compared]
    by_contra differs
    exact shown ⟨Or.inl (Ne.symm differs), visible.inPlace⟩

/-! ## Deltas -/

theorem laterChange_isSome {before : ContentSnapshot} {tracked : JsString → Bool}
    {entry : JsString × ContentIdentity} :
    (∃ change, laterChange before tracked entry = some (entry.1, change)) ↔
      before.get? entry.1 ≠ some entry.2 := by
  rw [laterChange]
  by_cases same : before.get? entry.1 = some entry.2
  · rw [if_pos same]
    exact iff_of_false (fun found => found.elim fun _ none => Option.some_ne_none _ none.symm)
      (not_not_intro same)
  rw [if_neg same]
  refine iff_of_true ?_ same
  by_cases deleted : entry.2 = .deleted
  · exact ⟨_, if_pos deleted⟩
  rw [if_neg deleted]
  by_cases new : before.get? entry.1 = none
  · exact ⟨_, if_pos new⟩
  · exact ⟨_, if_neg new⟩

theorem laterChange_name {before : ContentSnapshot} {tracked : JsString → Bool}
    {entry : JsString × ContentIdentity} {found : JsString × ContentChange}
    (change : laterChange before tracked entry = some found) : found.1 = entry.1 := by
  rw [laterChange] at change
  split_ifs at change <;> cases change <;> rfl

/-- A delta names what has another identity, or none, in one of the snapshots. -/
theorem mem_contentDelta {before after : ContentSnapshot} {tracked : JsString → Bool}
    {name : JsString} :
    name ∈ (contentDelta before after tracked).entries.map Prod.fst ↔
      before.get? name ≠ after.get? name := by
  rw [contentDelta, OrderedMap.mem_keys_ofEntries, List.map_append, List.mem_append]
  cases later : after.get? name with
  | none =>
      have gone : ∀ identity, (name, identity) ∉ after.entries := by
        intro identity member
        rw [OrderedMap.get?_eq_some.mpr member] at later
        cases later
      constructor
      · intro listed missing
        rcases listed with changed | removed
        · obtain ⟨found, member, rfl⟩ := List.mem_map.mp changed
          obtain ⟨entry, inside, change⟩ := List.mem_filterMap.mp member
          rw [laterChange_name change] at gone
          exact gone _ inside
        · obtain ⟨found, member, rfl⟩ := List.mem_map.mp removed
          obtain ⟨entry, inside, rfl⟩ := List.mem_map.mp member
          have known := (List.mem_filter.mp inside).1
          rw [OrderedMap.get?_eq_none] at missing
          exact missing (List.mem_map_of_mem known)
      · intro differs
        obtain ⟨identity, known⟩ := Option.ne_none_iff_exists'.mp differs
        refine Or.inr (List.mem_map.mpr ⟨(name, .deleted), List.mem_map.mpr
          ⟨(name, identity), List.mem_filter.mpr ⟨OrderedMap.get?_eq_some.mp known, ?_⟩, rfl⟩, rfl⟩)
        rw [later]
        rfl
  | some identity =>
      have inside := OrderedMap.get?_eq_some.mp later
      constructor
      · intro listed same
        rcases listed with changed | removed
        · obtain ⟨found, member, rfl⟩ := List.mem_map.mp changed
          obtain ⟨entry, there, change⟩ := List.mem_filterMap.mp member
          have named := laterChange_name change
          have differs := laterChange_isSome.mp
            ⟨found.2, change.trans (by rw [← named])⟩
          have known := OrderedMap.get?_eq_some.mpr there
          rw [named, known] at later
          cases later
          exact differs (named ▸ same)
        · obtain ⟨found, member, rfl⟩ := List.mem_map.mp removed
          obtain ⟨entry, there, rfl⟩ := List.mem_map.mp member
          have missing := (List.mem_filter.mp there).2
          dsimp only at later
          rw [later] at missing
          cases missing
      · intro differs
        obtain ⟨change, changed⟩ :=
          (@laterChange_isSome before tracked (name, identity)).mpr differs
        exact Or.inl (List.mem_map.mpr ⟨_, List.mem_filterMap.mpr ⟨_, inside, changed⟩, rfl⟩)

def changedPathsSince (renames : RenameDetection) (before : ContentSnapshot) (checkout : Checkout) :
    List JsString :=
  (changesSince renames before checkout).map Prod.fst

/-- The runtime writes there itself. -/
def isBookkeeping (name : JsString) : Bool :=
  SPC_STATE_PREFIXES.any fun folder => startsWith name folder

theorem mem_changedPathsSince {before : ContentSnapshot} {name : JsString} :
    name ∈ changedPathsSince renames before checkout ↔
      before.get? name ≠ (checkout.contentSnapshot renames).get? name ∧
        isBookkeeping name = false := by
  rw [← @mem_contentDelta _ _ checkout.isTracked, changedPathsSince, List.mem_map]
  constructor
  · intro listed
    obtain ⟨entry, member, rfl⟩ := listed
    obtain ⟨inside, other⟩ := List.mem_filter.mp member
    exact ⟨List.mem_map_of_mem inside, (Bool.not_eq_true' _).mp other⟩
  · intro changed
    obtain ⟨entry, inside, rfl⟩ := List.mem_map.mp changed.1
    exact ⟨entry, List.mem_filter.mpr ⟨inside, (Bool.not_eq_true' _).mpr changed.2⟩, rfl⟩

variable {before after : Checkout}

theorem changed_iff (seen : Visible renames checkout path) :
    ShownRaw renames checkout path ↔ checkout.head path ≠ checkout.compared path := by
  rw [ShownRaw, Checkout.Changed, and_iff_left seen.inPlace, seen.readable]
  simp

/-- A snapshot shows nothing of a visible path but its three versions. -/
theorem snapshot_congr (verbatim : printedName path = path) (seen : Visible renames before path)
    (seenAfter : Visible renames after path) (committed : before.head path = after.head path)
    (staged : before.index path = after.index path) (same : before.tree path = after.tree path) :
    (before.contentSnapshot renames).get? path = (after.contentSnapshot renames).get? path := by
  have compared : before.compared path = after.compared path := by
    rw [Checkout.compared, Checkout.compared, staged, same]
  have untracked : before.isUntracked path = after.isUntracked path := by
    rw [Worktree.isUntracked, Worktree.isUntracked, staged, same, seen.noticed, seenAfter.noticed]
  have identity : before.fileIdentity path = after.fileIdentity path := by
    rw [Checkout.fileIdentity, Checkout.fileIdentity, same, seen.readable, seenAfter.readable]
  have raw : before.rawIdentity path = after.rawIdentity path := by
    rw [Checkout.rawIdentity, Checkout.rawIdentity, compared, staged, seen.readable,
      seenAfter.readable]
  rw [get?_contentSnapshot verbatim, get?_contentSnapshot verbatim, untracked, identity, raw]
  simp only [changed_iff seen, changed_iff seenAfter, committed, compared]

end Snapshots

structure DeclaredCommand where
  command : JsString
  touchSet : Option (List JsString)

/-- A command and what its shell makes of a checkout. -/
structure Proposed where
  declared : DeclaredCommand
  effect : Checkout → Spawned × Checkout

structure CommandSetting where
  renames : RenameDetection
  digestOf : JsString → JsString
  worktreeRoot : JsString
  commandsConfig : CommandsConfig

structure CommandRunSummary where
  command : JsString
  exitCode : Option JsNumber
  stdout : JsString
  stderr : JsString
  timedOut : Bool

structure CommandRefusal where
  code : JsString
  message : JsString
  deriving DecidableEq

inductive DeclaredCommandsOutcome where
  | ok (results : List CommandRunSummary) (untouched : List JsString)
  | refused (refusal : CommandRefusal)

def TOUCH_SET_VIOLATION : JsString := js "TOUCH_SET_VIOLATION"
def COMMAND_DENIED : JsString := js "COMMAND_DENIED"
def COMMAND_FAILED : JsString := js "COMMAND_FAILED"

namespace Proposed

variable (setting : CommandSetting) (proposed : Proposed) (checkout : Checkout)

/-- The patterns of the touch-set, none when it is left out. -/
def declaredSet : List JsString :=
  proposed.declared.touchSet.getD []

def head (code : JsString) : JsString :=
  code ++ js ": " ++ quotedPath proposed.declared.command

def denied (run : CommandRunResult) : CommandRefusal where
  code := COMMAND_DENIED
  message := proposed.head COMMAND_DENIED ++ js " was not executed - " ++
    run.deniedReason.getD (js "denied by command policy")

def violation (offending : List JsString) : CommandRefusal where
  code := TOUCH_SET_VIOLATION
  message :=
    if proposed.declaredSet = [] then
      proposed.head TOUCH_SET_VIOLATION ++ js " wrote [" ++ joinTexts (js ", ") offending ++
        js ("] without declaring a touch-set; writes reverted. " ++
          "Declare the paths this command will touch, or keep it read-only")
    else
      proposed.head TOUCH_SET_VIOLATION ++ js " wrote outside its declared touch-set: " ++
        joinTexts (js ", ") offending ++ js "; writes reverted"

def failed (run : CommandRunResult) : CommandRefusal where
  code := COMMAND_FAILED
  message := proposed.head COMMAND_FAILED ++ js " exited " ++
    (run.exitCode.map JsNumber.text).getD (js "without an exit code") ++
    (if run.timedOut then js " (timed out)" else []) ++
    if run.stderr = [] then [] else js ": " ++ run.stderr.take 500

def summary (run : CommandRunResult) : CommandRunSummary where
  command := proposed.declared.command
  exitCode := run.exitCode
  stdout := run.stdout
  stderr := run.stderr
  timedOut := run.timedOut

def run : CommandRunResult :=
  runCommand setting.digestOf proposed.declared.command setting.worktreeRoot
    setting.commandsConfig (proposed.effect checkout).1

/-- The checkout that the command leaves. -/
def worked : Checkout :=
  (proposed.effect checkout).2

def changed : List JsString :=
  changedPathsSince setting.renames (checkout.contentSnapshot setting.renames)
    (proposed.worked checkout)

/-- The name is in the touch-set. -/
def declares (name : JsString) : Bool :=
  globMatchAny proposed.declaredSet (normalizeRelPath name)

def offending : List JsString :=
  (proposed.changed setting checkout).filter fun name => !proposed.declares name

/-- The declared patterns that nothing has changed under. -/
def untouched : List JsString :=
  proposed.declaredSet.filter fun pattern =>
    !(proposed.changed setting checkout).any fun name =>
      globMatchAny [pattern] (normalizeRelPath name)

/-- One command, with the checkout behind it. -/
def execute : Checkout × Except CommandRefusal (CommandRunSummary × List JsString) :=
  let run := proposed.run setting checkout
  let changed := proposed.changed setting checkout
  let offending := proposed.offending setting checkout
  if run.allowed = false then
    (checkout, .error (proposed.denied run))
  else if changed ≠ [] ∧ proposed.declaredSet = [] then
    (revertPaths (proposed.worked checkout) offending, .error (proposed.violation offending))
  else if changed ≠ [] ∧ offending ≠ [] then
    (revertPaths (proposed.worked checkout) offending, .error (proposed.violation offending))
  else if run.exitCode ≠ some (JsNumber.ofNat 0) ∨ run.timedOut = true then
    (proposed.worked checkout, .error (proposed.failed run))
  else
    (proposed.worked checkout, .ok (proposed.summary run, proposed.untouched setting checkout))

end Proposed

/-- The commands from one of them on, with what is collected before. -/
def runFrom (setting : CommandSetting) (results : List CommandRunSummary)
    (untouched : List JsString) : List Proposed → Checkout → Checkout × DeclaredCommandsOutcome
  | [], checkout => (checkout, .ok results untouched)
  | proposed :: rest, checkout =>
      match proposed.execute setting checkout with
      | (after, .error refusal) => (after, .refused refusal)
      | (after, .ok (summary, more)) =>
          runFrom setting (results ++ [summary]) (untouched ++ more) rest after

def runDeclaredCommands (setting : CommandSetting) (commands : List Proposed)
    (checkout : Checkout) : Checkout × DeclaredCommandsOutcome :=
  runFrom setting [] [] commands checkout

/-! ## One command -/

theorem tree_revertPaths (checkout : Checkout) (names : List JsString) (path : JsString) :
    (revertPaths checkout names).tree path =
      if path ∈ names ∧ isSafeRelativePath path = true then checkout.index path
      else checkout.tree path := by
  have reverted : ∀ names : List JsString, ∀ checkout : Checkout,
      (revertPaths checkout names).index = checkout.index ∧
      (revertPaths checkout names).tree path =
        if path ∈ names ∧ isSafeRelativePath path = true then checkout.index path
        else checkout.tree path := by
    intro names
    induction names with
    | nil => exact fun checkout => ⟨rfl, (if_neg fun inside => List.not_mem_nil inside.1).symm⟩
    | cons name names inductionHypothesis =>
        intro checkout
        rw [revertPaths, List.foldl_cons]
        obtain ⟨staged, rest⟩ := inductionHypothesis (revertPath checkout name)
        have kept : (revertPath checkout name).index = checkout.index := by
          rw [revertPath]
          split_ifs <;> rfl
        refine ⟨staged.trans kept, rest.trans ?_⟩
        rw [kept]
        by_cases later : path ∈ names ∧ isSafeRelativePath path = true
        · rw [if_pos later, if_pos ⟨List.mem_cons_of_mem _ later.1, later.2⟩]
        rw [if_neg later, revertPath]
        by_cases safe : isSafeRelativePath name = true
        · rw [if_pos safe]
          by_cases same : path = name
          · subst same
            rw [if_pos ⟨List.mem_cons_self, safe⟩]
            exact checkout.toWorktree.put_tree_self _ _
          · rw [if_neg fun inside => (List.mem_cons.mp inside.1).elim same
              fun member => later ⟨member, inside.2⟩]
            exact checkout.toWorktree.put_tree_ne same _
        · rw [if_neg safe, if_neg]
          rintro ⟨member, pathSafe⟩
          rcases List.mem_cons.mp member with rfl | inside
          · exact safe pathSafe
          · exact later ⟨inside, pathSafe⟩
  exact (reverted names checkout).2

variable {setting : CommandSetting} {proposed : Proposed} {checkout after : Checkout}

/-- The policy allows the command, it changes nothing outside its touch-set, and it succeeds. -/
structure Accepts (setting : CommandSetting) (proposed : Proposed) (checkout : Checkout) :
    Prop where
  allowed : (evaluateCommandPolicy proposed.declared.command setting.commandsConfig).allowed = true
  inside : ∀ name ∈ proposed.changed setting checkout, proposed.declares name = true
  exits : (proposed.run setting checkout).exitCode = some (JsNumber.ofNat 0)
  inTime : (proposed.run setting checkout).timedOut = false

/-- Why a command is refused, and the checkout behind it. -/
inductive RefusedBy (setting : CommandSetting) (proposed : Proposed) (checkout : Checkout) :
    Checkout → CommandRefusal → Prop
  /-- It was not executed. -/
  | denied
      (policy : (evaluateCommandPolicy proposed.declared.command
        setting.commandsConfig).allowed = false) :
      RefusedBy setting proposed checkout checkout
        (proposed.denied (proposed.run setting checkout))
  | violates
      (policy : (evaluateCommandPolicy proposed.declared.command
        setting.commandsConfig).allowed = true)
      (outside : proposed.offending setting checkout ≠ []) :
      RefusedBy setting proposed checkout
        (revertPaths (proposed.worked checkout) (proposed.offending setting checkout))
        (proposed.violation (proposed.offending setting checkout))
  | failed
      (policy : (evaluateCommandPolicy proposed.declared.command
        setting.commandsConfig).allowed = true)
      (inside : ∀ name ∈ proposed.changed setting checkout, proposed.declares name = true)
      (fails : (proposed.run setting checkout).exitCode ≠ some (JsNumber.ofNat 0) ∨
        (proposed.run setting checkout).timedOut = true) :
      RefusedBy setting proposed checkout (proposed.worked checkout)
        (proposed.failed (proposed.run setting checkout))

theorem run_allowed :
    (proposed.run setting checkout).allowed =
      (evaluateCommandPolicy proposed.declared.command setting.commandsConfig).allowed := by
  rw [Proposed.run, runCommand]
  cases (evaluateCommandPolicy proposed.declared.command setting.commandsConfig).allowed with
  | true => rfl
  | false => rfl

theorem offending_eq_nil :
    proposed.offending setting checkout = [] ↔
      ∀ name ∈ proposed.changed setting checkout, proposed.declares name = true := by
  rw [Proposed.offending, List.filter_eq_nil_iff]
  simp

/-- Without a touch-set every change is one too many. -/
theorem offending_undeclared (undeclared : proposed.declaredSet = []) :
    proposed.offending setting checkout = proposed.changed setting checkout := by
  rw [Proposed.offending, List.filter_eq_self]
  intro name member
  rw [Proposed.declares, undeclared]
  rfl

theorem run_not_denied
    (policy : (evaluateCommandPolicy proposed.declared.command
      setting.commandsConfig).allowed = true) :
    ¬ (proposed.run setting checkout).allowed = false := by
  rw [run_allowed, policy]
  decide

theorem execute_of_accepts (accepts : Accepts setting proposed checkout) :
    proposed.execute setting checkout = (proposed.worked checkout,
      .ok (proposed.summary (proposed.run setting checkout),
        proposed.untouched setting checkout)) := by
  have none := offending_eq_nil.mpr accepts.inside
  have undeclared : ¬ (proposed.changed setting checkout ≠ [] ∧ proposed.declaredSet = []) := by
    rintro ⟨some, undeclared⟩
    exact some ((offending_undeclared undeclared).symm.trans none)
  have fails : ¬ ((proposed.run setting checkout).exitCode ≠ some (JsNumber.ofNat 0) ∨
      (proposed.run setting checkout).timedOut = true) := by
    rw [accepts.exits, accepts.inTime]
    simp
  rw [Proposed.execute]
  rw [if_neg (run_not_denied accepts.allowed), if_neg undeclared,
    if_neg fun violates => violates.2 none, if_neg fails]

theorem execute_of_refusedBy {refusal : CommandRefusal}
    (refused : RefusedBy setting proposed checkout after refusal) :
    proposed.execute setting checkout = (after, .error refusal) := by
  rw [Proposed.execute]
  cases refused with
  | denied policy => rw [if_pos (run_allowed.trans policy)]
  | violates policy outside =>
      rw [if_neg (run_not_denied policy)]
      by_cases undeclared : proposed.changed setting checkout ≠ [] ∧ proposed.declaredSet = []
      · rw [if_pos undeclared]
      · have some : proposed.changed setting checkout ≠ [] := by
          intro none
          rw [Proposed.offending, none] at outside
          exact outside rfl
        rw [if_neg undeclared, if_pos ⟨some, outside⟩]
  | failed policy inside fails =>
      have none := offending_eq_nil.mpr inside
      have undeclared : ¬ (proposed.changed setting checkout ≠ [] ∧ proposed.declaredSet = []) := by
        rintro ⟨some, undeclared⟩
        exact some ((offending_undeclared undeclared).symm.trans none)
      rw [if_neg (run_not_denied policy), if_neg undeclared,
        if_neg fun violates => violates.2 none, if_pos fails]

/-- A command is accepted or refused for one of the reasons. -/
theorem accepts_or_refused (setting : CommandSetting) (proposed : Proposed) (checkout : Checkout) :
    Accepts setting proposed checkout ∨
      ∃ after refusal, RefusedBy setting proposed checkout after refusal := by
  by_cases policy : (evaluateCommandPolicy proposed.declared.command
      setting.commandsConfig).allowed = true
  · by_cases outside : proposed.offending setting checkout = []
    · have inside := offending_eq_nil.mp outside
      by_cases fails : (proposed.run setting checkout).exitCode ≠ some (JsNumber.ofNat 0) ∨
          (proposed.run setting checkout).timedOut = true
      · exact Or.inr ⟨_, _, .failed policy inside fails⟩
      · rw [not_or, not_not, Bool.not_eq_true] at fails
        exact Or.inl ⟨policy, inside, fails.1, fails.2⟩
    · exact Or.inr ⟨_, _, .violates policy outside⟩
  · rw [Bool.not_eq_true] at policy
    exact Or.inr ⟨_, _, .denied policy⟩

/-! ## All commands -/

/-- The commands are accepted one after another. -/
inductive AcceptedRun (setting : CommandSetting) :
    List Proposed → Checkout → Checkout → List CommandRunSummary → List JsString → Prop
  | nil (checkout : Checkout) : AcceptedRun setting [] checkout checkout [] []
  | cons {proposed : Proposed} {rest : List Proposed} {checkout after : Checkout}
      {results : List CommandRunSummary} {untouched : List JsString}
      (accepts : Accepts setting proposed checkout)
      (later : AcceptedRun setting rest (proposed.worked checkout) after results untouched) :
      AcceptedRun setting (proposed :: rest) checkout after
        (proposed.summary (proposed.run setting checkout) :: results)
        (proposed.untouched setting checkout ++ untouched)

/-- The run up to the command that is refused. -/
inductive RefusedRun (setting : CommandSetting) (commands : List Proposed) (checkout : Checkout)
    (after : Checkout) (refusal : CommandRefusal) : Prop
  | intro {before rest : List Proposed} {proposed : Proposed} {middle : Checkout}
      {results : List CommandRunSummary} {untouched : List JsString}
      (split : commands = before ++ proposed :: rest)
      (accepted : AcceptedRun setting before checkout middle results untouched)
      (refused : RefusedBy setting proposed middle after refusal)

variable {commands : List Proposed} {results : List CommandRunSummary} {untouched : List JsString}
  {refusal : CommandRefusal}

/-- The commands behind accepted ones go on with what those have left. -/
theorem AcceptedRun.runFrom
    (accepted : AcceptedRun setting commands checkout after results untouched)
    (before : List CommandRunSummary) (known : List JsString) (rest : List Proposed) :
    runFrom setting before known (commands ++ rest) checkout =
      runFrom setting (before ++ results) (known ++ untouched) rest after := by
  induction accepted generalizing before known with
  | nil checkout => rw [List.nil_append, List.append_nil, List.append_nil]
  | cons accepts later inductionHypothesis =>
      rw [List.cons_append, Executor.runFrom, execute_of_accepts accepts]
      dsimp only
      rw [inductionHypothesis, List.append_assoc, List.append_assoc]
      rfl

theorem RefusedBy.runFrom (refused : RefusedBy setting proposed checkout after refusal)
    (before : List CommandRunSummary) (known : List JsString) (rest : List Proposed) :
    runFrom setting before known (proposed :: rest) checkout = (after, .refused refusal) := by
  rw [Executor.runFrom, execute_of_refusedBy refused]

/-- The commands are all accepted, or one of them is refused. -/
theorem accepted_or_refused (setting : CommandSetting) (commands : List Proposed)
    (checkout : Checkout) :
    (∃ after results untouched, AcceptedRun setting commands checkout after results untouched) ∨
      ∃ after refusal, RefusedRun setting commands checkout after refusal := by
  induction commands generalizing checkout with
  | nil => exact Or.inl ⟨_, _, _, .nil checkout⟩
  | cons proposed rest inductionHypothesis =>
      rcases accepts_or_refused setting proposed checkout with accepts | ⟨after, refusal, refused⟩
      · rcases inductionHypothesis (proposed.worked checkout) with
          ⟨after, results, untouched, accepted⟩ | ⟨after, refusal, split, accepted, refused⟩
        · exact Or.inl ⟨_, _, _, .cons accepts accepted⟩
        · exact Or.inr ⟨_, _, congrArg (proposed :: ·) split, .cons accepts accepted, refused⟩
      · exact Or.inr ⟨_, _, rfl, .nil checkout, refused⟩

theorem AcceptedRun.ends
    (accepted : AcceptedRun setting commands checkout after results untouched) :
    runDeclaredCommands setting commands checkout = (after, .ok results untouched) := by
  have ended := accepted.runFrom [] [] []
  rw [List.append_nil] at ended
  exact ended

theorem RefusedRun.ends (refused : RefusedRun setting commands checkout after refusal) :
    runDeclaredCommands setting commands checkout = (after, .refused refusal) := by
  obtain ⟨rfl, accepted, refused⟩ := refused
  rw [runDeclaredCommands, accepted.runFrom, refused.runFrom]

theorem accepted_of_ok
    (ended : runDeclaredCommands setting commands checkout = (after, .ok results untouched)) :
    AcceptedRun setting commands checkout after results untouched := by
  rcases accepted_or_refused setting commands checkout with
    ⟨other, found, patterns, accepted⟩ | ⟨other, refusal, refused⟩
  · cases ended.symm.trans accepted.ends
    exact accepted
  · cases ended.symm.trans refused.ends

theorem refused_of_refused
    (ended : runDeclaredCommands setting commands checkout = (after, .refused refusal)) :
    RefusedRun setting commands checkout after refusal := by
  rcases accepted_or_refused setting commands checkout with
    ⟨other, found, patterns, accepted⟩ | ⟨other, refusal, refused⟩
  · cases ended.symm.trans accepted.ends
  · cases ended.symm.trans refused.ends
    exact refused

/-- What no touch-set covers shows no change in the snapshots. -/
theorem AcceptedRun.unchanged
    (accepted : AcceptedRun setting commands checkout after results untouched) {name : JsString}
    (other : isBookkeeping name = false)
    (outside : ∀ proposed ∈ commands, proposed.declares name = false) :
    (checkout.contentSnapshot setting.renames).get? name =
      (after.contentSnapshot setting.renames).get? name := by
  induction accepted with
  | nil checkout => rfl
  | @cons proposed rest checkout after results untouched accepts later inductionHypothesis =>
      rw [List.forall_mem_cons] at outside
      refine Eq.trans ?_ (inductionHypothesis outside.2)
      by_contra differs
      have declared := accepts.inside name (mem_changedPathsSince.mpr ⟨differs, other⟩)
      rw [outside.1] at declared
      cases declared

/-- Every command has its result, in order. -/
theorem AcceptedRun.reported
    (accepted : AcceptedRun setting commands checkout after results untouched) :
    results.map CommandRunSummary.command = commands.map (·.declared.command) ∧
      ∀ result ∈ results, result.exitCode = some (JsNumber.ofNat 0) ∧ result.timedOut = false := by
  induction accepted with
  | nil checkout => exact ⟨rfl, List.forall_mem_nil _⟩
  | cons accepts later inductionHypothesis =>
      rw [List.map_cons, List.map_cons, inductionHypothesis.1]
      refine ⟨rfl, List.forall_mem_cons.mpr ⟨⟨accepts.exits, accepts.inTime⟩, ?_⟩⟩
      exact inductionHypothesis.2

/-- Every command is allowed, and git detects no renames. -/
def openSetting : CommandSetting where
  renames := noRenames
  digestOf text := text
  worktreeRoot := js "/work"
  commandsConfig := ⟨.allow, .allow, .allow, .allow, .allow, .allow, .allow, .allow⟩

/-- A command that succeeds and leaves new files. -/
def writing (paths : List JsString) : Proposed where
  declared := { command := js "pnpm test", touchSet := some [js "out.txt"] }
  effect _ :=
    ({ started := true, exitCode := some (JsNumber.ofNat 0), signal := none, stdout := [],
       stderr := [], stdoutDigest := [], stderrDigest := [], durationMs := JsNumber.ofNat 1,
       timedOut := false }, newFiles paths)

theorem writing_accepted :
    AcceptedRun openSetting [writing [js "a.ts", js "out.txt"]] (newFiles [js "a.ts"])
      (newFiles [js "a.ts", js "out.txt"])
      [(writing [js "a.ts", js "out.txt"]).summary
        ((writing [js "a.ts", js "out.txt"]).run openSetting (newFiles [js "a.ts"]))]
      ((writing [js "a.ts", js "out.txt"]).untouched openSetting (newFiles [js "a.ts"]) ++ []) :=
  .cons ⟨by decide +kernel, by decide +kernel, rfl, rfl⟩ (.nil _)

/-- What a refused command leaves: nothing of its own when it was denied, its index version of
every path that it changed outside its touch-set, or its changes inside the touch-set. -/
inductive LeftBehind (setting : CommandSetting) (proposed : Proposed) (checkout after : Checkout)
    (refusal : CommandRefusal) : Prop
  | denied (code : refusal.code = COMMAND_DENIED) (untouched : after = checkout)
  | reverted (code : refusal.code = TOUCH_SET_VIOLATION)
      (outside : ∃ name ∈ proposed.changed setting checkout, proposed.declares name = false)
      (restored : ∀ name ∈ proposed.changed setting checkout, proposed.declares name = false →
        isSafeRelativePath name = true → after.tree name = (proposed.worked checkout).index name)
      (others : ∀ path, (path ∈ proposed.changed setting checkout → proposed.declares path = true) →
        after.tree path = (proposed.worked checkout).tree path)
  | failed (code : refusal.code = COMMAND_FAILED) (left : after = proposed.worked checkout)
      (inside : ∀ name ∈ proposed.changed setting checkout, proposed.declares name = true)

theorem mem_offending {name : JsString} :
    name ∈ proposed.offending setting checkout ↔
      name ∈ proposed.changed setting checkout ∧ proposed.declares name = false := by
  rw [Proposed.offending, List.mem_filter, Bool.not_eq_true']

theorem RefusedBy.leftBehind (refused : RefusedBy setting proposed checkout after refusal) :
    LeftBehind setting proposed checkout after refusal := by
  cases refused with
  | denied policy => exact .denied rfl rfl
  | violates policy outside =>
      obtain ⟨name, offends⟩ := List.exists_mem_of_ne_nil _ outside
      refine .reverted rfl ⟨name, mem_offending.mp offends⟩ ?_ ?_
      · intro other changed undeclared safe
        rw [tree_revertPaths, if_pos ⟨mem_offending.mpr ⟨changed, undeclared⟩, safe⟩]
      · intro path declared
        rw [tree_revertPaths, if_neg]
        intro inside
        obtain ⟨changed, undeclared⟩ := mem_offending.mp inside.1
        rw [declared changed] at undeclared
        cases undeclared
  | failed policy inside fails => exact .failed rfl rfl inside

/-- A file outside the touch-set. -/
def stray : Proposed :=
  writing [js "b.ts"]

/-- What is left behind it. -/
def strayEnd : Checkout :=
  revertPaths (stray.worked (newFiles [])) (stray.offending openSetting (newFiles []))

def strayRefusal : CommandRefusal :=
  stray.violation (stray.offending openSetting (newFiles []))

theorem stray_refused :
    RefusedRun openSetting [stray, writing []] (newFiles []) strayEnd strayRefusal :=
  @RefusedRun.intro _ _ _ _ _ [] [writing []] stray (newFiles []) [] [] rfl (.nil _)
    (.violates (by decide +kernel) (by decide +kernel))

end SpecAsCode.Executor
