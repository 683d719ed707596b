import SpecAsCode.Core.SpecDigest
import SpecAsCode.Lib.Preorder
import SpecAsCode.Verifier.CommandScope

/-!
# Scopes of compound commands

The scope of a compound command next to the scopes of its segments.
-/

namespace SpecAsCode.Verifier

open SpecAsCode.Js
open SpecAsCode.Compiler (mem_sortUnique sortUnique_eq_iff)
open SpecAsCode.Core
open SpecAsCode.Lib (Reaches)

/-! ## Breadth -/

/-- The packages of a set of names, with those they depend on when the scope takes them in. -/
def covered (dependencies : JsString → List JsString) (names : List JsString) (withDeps : Bool) :
    Set JsString :=
  {name | ∃ first ∈ names, if withDeps then Reaches dependencies first name else first = name}

/-- One scope is at least as broad as another one; no scope at all is the broadest. -/
def AtLeast (dependencies : JsString → List JsString) : Option CacheScope → Option CacheScope → Prop
  | none, _ => True
  | some _, none => False
  | some ⟨none, _⟩, some _ => True
  | some ⟨some _, _⟩, some ⟨none, _⟩ => False
  | some ⟨some broad, broadDeps⟩, some ⟨some narrow, narrowDeps⟩ =>
      covered dependencies narrow narrowDeps ⊆ covered dependencies broad broadDeps

theorem covered_mono {dependencies : JsString → List JsString} {narrow broad : List JsString}
    {narrowDeps broadDeps : Bool} (names : ∀ name ∈ narrow, name ∈ broad)
    (deps : narrowDeps = true → broadDeps = true) :
    covered dependencies narrow narrowDeps ⊆ covered dependencies broad broadDeps := by
  rintro name ⟨first, member, reached⟩
  refine ⟨first, names first member, ?_⟩
  cases narrowDeps with
  | true => rwa [deps rfl]
  | false =>
      obtain rfl : first = name := reached
      split_ifs
      · exact .refl
      · rfl

/-! ## Segments -/

/-- A segment that runs `pnpm`. -/
def isPnpm (segment : JsString) : Bool :=
  (splitSpaces segment).head? == some (js "pnpm")

/-- A token that gives a scope by itself. -/
def isScopeToken (token : JsString) : Bool :=
  token == js "-r" || token == js "--recursive" || startsWith token (js "--filter=")

/-- A `pnpm` segment with a recursive flag or a filter; `--filter` needs a token behind it. -/
def isScoped (segment : JsString) : Bool :=
  let tokens := (splitSpaces segment).tail
  isPnpm segment && (tokens.any isScopeToken || tokens.dropLast.contains (js "--filter"))

/-- A text keeps its first code unit in its first segment, when that has one. -/
theorem head_of_splitCompound {first code : CodeUnit} {rest segment : JsString}
    {segments : List JsString}
    (split : splitCompound (first :: rest) = (code :: segment) :: segments) : code = first := by
  unfold splitCompound at split
  split at split
  next same => cases same
  next same =>
    cases same
    split_ifs at split
    · cases split
    · cases split
      rfl
  next same =>
    cases same
    split_ifs at split
    · cases split
    · cases split
    · split at split
      · cases split
        rfl
      · cases split
        rfl

/-- A segment is its own only segment. -/
theorem splitCompound_of_mem {command segment : JsString} (member : segment ∈ splitCompound command) :
    splitCompound segment = [segment] := by
  fun_induction splitCompound command generalizing segment with
  | case1 =>
      rw [List.mem_singleton.mp member]
      rfl
  | case2 =>
      have empty : segment = [] := by simpa using member
      rw [empty]
      rfl
  | case3 code other =>
      rw [List.mem_singleton.mp member, splitCompound, if_neg other]
  | case4 code next rest separator inductionHypothesis =>
      rcases List.mem_cons.mp member with rfl | later
      · rfl
      · exact inductionHypothesis later
  | case5 next rest pair inductionHypothesis =>
      rcases List.mem_cons.mp member with rfl | later
      · rfl
      · exact inductionHypothesis later
  | case6 code next rest pair semicolon none inductionHypothesis =>
      rw [List.mem_singleton.mp member, splitCompound, if_neg semicolon]
  | case7 code next rest pair semicolon first segments split inductionHypothesis =>
      rcases List.mem_cons.mp member with rfl | later
      · have alone := inductionHypothesis (split ▸ List.mem_cons_self)
        cases first with
        | nil => rw [splitCompound, if_neg semicolon]
        | cons letter tail =>
            obtain rfl := head_of_splitCompound split
            rw [splitCompound, if_neg pair, if_neg semicolon, alone]
      · exact inductionHypothesis (split ▸ List.mem_cons_of_mem _ later)

/-! ## Scans -/

def noFilters : FilterScan :=
  ⟨[], false, false, false⟩

/-- What two scans saw together. -/
def FilterScan.merge (first second : FilterScan) : FilterScan :=
  ⟨first.filters ++ second.filters, first.withDeps || second.withDeps,
    first.sawScope || second.sawScope, first.sawRecursive || second.sawRecursive⟩

theorem FilterScan.merge_assoc (first second third : FilterScan) :
    (first.merge second).merge third = first.merge (second.merge third) := by
  simp [merge, Bool.or_assoc]

theorem FilterScan.merge_noFilters (scan : FilterScan) : scan.merge noFilters = scan := by
  simp [merge, noFilters]

theorem FilterScan.noFilters_merge (scan : FilterScan) : noFilters.merge scan = scan := by
  simp [merge, noFilters]

theorem FilterScan.add_eq (scan : FilterScan) (spec : JsString) :
    scan.add spec = scan.merge (noFilters.add spec) := by
  simp [add, merge, noFilters]

/-- The scan after a recursive flag. -/
def FilterScan.recursive (scan : FilterScan) : FilterScan :=
  { scan with sawRecursive := true, sawScope := true }

theorem FilterScan.recursive_eq (scan : FilterScan) :
    scan.recursive = scan.merge noFilters.recursive := by
  simp [recursive, merge, noFilters]

theorem scanTokens_merge : ∀ (tokens : List JsString) (scan : FilterScan),
    scanTokens scan tokens = scan.merge (scanTokens noFilters tokens)
  | [], scan => scan.merge_noFilters.symm
  | [token], scan => by
      rw [scanTokens, scanTokens]
      split_ifs
      · exact scan.recursive_eq
      · exact scan.add_eq _
      · exact scan.merge_noFilters.symm
  | token :: next :: rest, scan => by
      rw [scanTokens, scanTokens]
      split_ifs
      · refine (scanTokens_merge (next :: rest) scan.recursive).trans ?_
        rw [scan.recursive_eq, FilterScan.merge_assoc]
        exact congrArg scan.merge (scanTokens_merge (next :: rest) noFilters.recursive).symm
      · rw [scanTokens_merge (next :: rest), scanTokens_merge (next :: rest) (noFilters.add _),
          scan.add_eq, FilterScan.merge_assoc]
      · rw [scanTokens_merge rest, scanTokens_merge rest (noFilters.add _), scan.add_eq,
          FilterScan.merge_assoc]
      · exact scanTokens_merge (next :: rest) scan

theorem scanSegment_merge (scan : FilterScan) (segment : JsString) :
    scanSegment scan segment = scan.merge (scanSegment noFilters segment) := by
  rw [scanSegment, scanSegment]
  cases splitSpaces segment with
  | nil => exact scan.merge_noFilters.symm
  | cons first tokens =>
      dsimp only
      split_ifs
      · exact scanTokens_merge tokens scan
      · exact scan.merge_noFilters.symm

theorem foldl_scanSegment (scan : FilterScan) (segments : List JsString) :
    segments.foldl scanSegment scan = scan.merge (segments.foldl scanSegment noFilters) := by
  induction segments generalizing scan with
  | nil => exact scan.merge_noFilters.symm
  | cons segment segments inductionHypothesis =>
      rw [List.foldl_cons, List.foldl_cons, inductionHypothesis,
        inductionHypothesis (scanSegment noFilters segment), scanSegment_merge,
        FilterScan.merge_assoc]

/-- What is seen in the segments is what is seen in some of them. -/
theorem any_scanSegment {seen : FilterScan → Bool}
    (merged : ∀ first second, seen (first.merge second) = (seen first || seen second))
    (start : seen noFilters = false) (segments : List JsString) :
    seen (segments.foldl scanSegment noFilters) =
      segments.any fun segment => seen (scanSegment noFilters segment) := by
  induction segments with
  | nil => exact start
  | cons segment segments inductionHypothesis =>
      rw [List.foldl_cons, foldl_scanSegment, merged, inductionHypothesis, List.any_cons]

/-- The scope of a finished scan. -/
def FilterScan.scope (scan : FilterScan) : Option CacheScope :=
  if !scan.sawScope then
    none
  else if scan.sawRecursive then
    some ⟨none, true⟩
  else
    some ⟨some (sortUnique scan.filters), scan.withDeps⟩

theorem parseFilterScope_eq (command : JsString) :
    parseFilterScope command = ((splitCompound command).foldl scanSegment noFilters).scope := rfl

theorem scanSegment_of_not_isPnpm {segment : JsString} (other : isPnpm segment = false) :
    scanSegment noFilters segment = noFilters := by
  rw [isPnpm] at other
  rw [scanSegment]
  cases tokens : splitSpaces segment with
  | nil => rfl
  | cons first rest =>
      rw [tokens] at other
      exact if_neg fun same => by simp [same] at other

theorem isScopeToken_iff {token : JsString} : isScopeToken token = true ↔
    (token = js "-r" ∨ token = js "--recursive") ∨ startsWith token (js "--filter=") = true := by
  simp [isScopeToken]

/-- A scope is seen in the tokens of which one gives a scope. -/
theorem sawScope_scanTokens : ∀ (tokens : List JsString) (scan : FilterScan),
    (scanTokens scan tokens).sawScope =
      (scan.sawScope || (tokens.any isScopeToken || tokens.dropLast.contains (js "--filter")))
  | [], scan => by simp [scanTokens]
  | [token], scan => by
      rw [scanTokens, List.any_cons]
      split_ifs with recursive filter
      · simp [isScopeToken_iff.mpr (Or.inl recursive)]
      · simp [isScopeToken_iff.mpr (Or.inr filter), FilterScan.add]
      · have other : isScopeToken token = false :=
          Bool.eq_false_iff.mpr fun scope => (isScopeToken_iff.mp scope).elim recursive filter
        simp [other]
  | token :: next :: rest, scan => by
      rw [scanTokens, List.any_cons, List.dropLast_cons_cons, List.contains_cons]
      split_ifs with recursive filter separate
      · rw [sawScope_scanTokens, isScopeToken_iff.mpr (Or.inl recursive)]
        simp
      · rw [sawScope_scanTokens, isScopeToken_iff.mpr (Or.inr filter)]
        simp [FilterScan.add]
      · rw [sawScope_scanTokens, separate]
        simp [FilterScan.add]
      · have other : isScopeToken token = false :=
          Bool.eq_false_iff.mpr fun scope => (isScopeToken_iff.mp scope).elim recursive filter
        rw [sawScope_scanTokens, other, beq_false_of_ne (Ne.symm separate), Bool.false_or,
          Bool.false_or]

theorem sawScope_scanSegment (segment : JsString) :
    (scanSegment noFilters segment).sawScope = isScoped segment := by
  rw [isScoped, scanSegment, isPnpm]
  cases splitSpaces segment with
  | nil => rfl
  | cons first tokens =>
      dsimp only
      split_ifs with same
      · rw [sawScope_scanTokens, same]
        rfl
      · rw [List.head?_cons, beq_false_of_ne fun equal => same (Option.some.inj equal)]
        rfl

/-! ## Scopes -/

theorem FilterScan.scope_congr {first second : FilterScan}
    (filters : ∀ name, name ∈ first.filters ↔ name ∈ second.filters)
    (withDeps : first.withDeps = second.withDeps) (sawScope : first.sawScope = second.sawScope)
    (sawRecursive : first.sawRecursive = second.sawRecursive) : first.scope = second.scope := by
  rw [scope, scope, withDeps, sawScope, sawRecursive, sortUnique_eq_iff.mpr filters]

theorem merge_filters (name : JsString) (first second : FilterScan) :
    decide (name ∈ (first.merge second).filters) =
      (decide (name ∈ first.filters) || decide (name ∈ second.filters)) := by
  simp [FilterScan.merge]

/-- The scope is decided by which segments run `pnpm`, in whatever order. -/
theorem parseFilterScope_congr {first second : JsString}
    (same : ∀ segment, isPnpm segment = true →
      (segment ∈ splitCompound first ↔ segment ∈ splitCompound second)) :
    parseFilterScope first = parseFilterScope second := by
  have agree : ∀ seen : FilterScan → Bool,
      (∀ first second, seen (first.merge second) = (seen first || seen second)) →
      seen noFilters = false → seen ((splitCompound first).foldl scanSegment noFilters) =
        seen ((splitCompound second).foldl scanSegment noFilters) := by
    intro seen merged start
    rw [any_scanSegment merged start, any_scanSegment merged start, Bool.eq_iff_iff,
      List.any_eq_true, List.any_eq_true]
    refine exists_congr fun segment => and_congr_left fun saw => same segment ?_
    by_contra other
    rw [scanSegment_of_not_isPnpm (Bool.eq_false_iff.mpr other), start] at saw
    exact Bool.false_ne_true saw
  rw [parseFilterScope_eq, parseFilterScope_eq]
  refine FilterScan.scope_congr (fun name => ?_) (agree (·.withDeps) (fun _ _ => rfl) rfl)
    (agree (·.sawScope) (fun _ _ => rfl) rfl) (agree (·.sawRecursive) (fun _ _ => rfl) rfl)
  have member := agree (fun scan => decide (name ∈ scan.filters)) (merge_filters name) rfl
  exact decide_eq_decide.mp member

/-- A segment alone has the scope of its scan. -/
theorem parseFilterScope_segment {command segment : JsString}
    (member : segment ∈ splitCompound command) :
    parseFilterScope segment = (scanSegment noFilters segment).scope := by
  rw [parseFilterScope_eq, splitCompound_of_mem member]
  rfl

/-- A scan that saw all that another one saw, which saw a scope, has a scope at least as broad. -/
theorem FilterScan.atLeast {dependencies : JsString → List JsString} {broad narrow : FilterScan}
    (sees : narrow.sawScope = true) (sawRecursive : narrow.sawRecursive = true →
      broad.sawRecursive = true) (withDeps : narrow.withDeps = true → broad.withDeps = true)
    (filters : ∀ name ∈ narrow.filters, name ∈ broad.filters) :
    AtLeast dependencies broad.scope narrow.scope := by
  rw [scope, scope, sees]
  cases unscoped : broad.sawScope with
  | false => trivial
  | true =>
      cases whole : broad.sawRecursive with
      | true =>
          cases narrow.sawRecursive <;> trivial
      | false =>
          cases wholeNarrow : narrow.sawRecursive with
          | true => exact absurd (whole.symm.trans (sawRecursive wholeNarrow)) nofun
          | false =>
              refine covered_mono (fun name member => ?_) withDeps
              exact mem_sortUnique.mpr (filters name (mem_sortUnique.mp member))

/-! ## Compound commands -/

/-- The scope of a command next to its segments: it is at least as broad as that of each `pnpm`
segment, and neither the order of the segments nor the other segments have a part in it. -/
structure Aggregates (command : JsString) : Prop where
  broad : ∀ dependencies, ∀ segment ∈ splitCompound command, isPnpm segment = true →
    AtLeast dependencies (parseFilterScope command) (parseFilterScope segment)
  unordered : ∀ other, (splitCompound other).Perm (splitCompound command) →
    parseFilterScope other = parseFilterScope command
  independent : ∀ other,
    (splitCompound other).filter isPnpm = (splitCompound command).filter isPnpm →
      parseFilterScope other = parseFilterScope command

/-- A command aggregates its segments exactly when no `pnpm` segment is without a scope next to
one that has a scope. -/
theorem aggregates_iff (command : JsString) :
    Aggregates command ↔
      ∀ segment ∈ splitCompound command, ∀ other ∈ splitCompound command,
        isPnpm segment = true → isScoped segment = false → isScoped other = false := by
  have sawScope := @any_scanSegment FilterScan.sawScope (fun _ _ => rfl) rfl (splitCompound command)
  constructor
  · intro aggregates segment member other otherMember pnpm unscoped
    by_contra sees
    have whole : ((splitCompound command).foldl scanSegment noFilters).sawScope = true := by
      rw [sawScope]
      refine List.any_eq_true.mpr ⟨other, otherMember, ?_⟩
      rw [sawScope_scanSegment]
      exact Bool.of_not_eq_false sees
    have broad := aggregates.broad (fun _ => []) segment member pnpm
    rw [parseFilterScope_segment member, FilterScan.scope, sawScope_scanSegment, unscoped,
      parseFilterScope_eq, FilterScan.scope, whole] at broad
    cases recursive : ((splitCompound command).foldl scanSegment noFilters).sawRecursive
    · rw [recursive] at broad
      exact broad
    · rw [recursive] at broad
      exact broad
  · intro apart
    refine ⟨fun dependencies segment member pnpm => ?_, fun other perm => ?_, fun other same => ?_⟩
    · rw [parseFilterScope_segment member]
      have within : ∀ seen : FilterScan → Bool,
          (∀ first second, seen (first.merge second) = (seen first || seen second)) →
          seen noFilters = false → seen (scanSegment noFilters segment) = true →
          seen ((splitCompound command).foldl scanSegment noFilters) = true := by
        intro seen merged start saw
        rw [any_scanSegment merged start]
        exact List.any_eq_true.mpr ⟨segment, member, saw⟩
      cases sees : isScoped segment with
      | true =>
          refine FilterScan.atLeast ((sawScope_scanSegment segment).trans sees)
            (within (·.sawRecursive) (fun _ _ => rfl) rfl)
            (within (·.withDeps) (fun _ _ => rfl) rfl) fun name named => ?_
          exact of_decide_eq_true (within (fun scan => decide (name ∈ scan.filters))
            (merge_filters name) rfl (decide_eq_true named))
      | false =>
          -- no segment has a scope, and the whole command has none
          have none : ((splitCompound command).foldl scanSegment noFilters).sawScope = false := by
            rw [sawScope]
            refine List.any_eq_false.mpr fun other otherMember => ?_
            rw [sawScope_scanSegment, apart segment member other otherMember pnpm sees]
            exact Bool.false_ne_true
          rw [parseFilterScope_eq, FilterScan.scope, none]
          trivial
    · exact parseFilterScope_congr fun segment _ => perm.mem_iff
    · refine parseFilterScope_congr fun segment pnpm => ?_
      have found := congrArg (segment ∈ ·) same
      simpa [List.mem_filter, pnpm] using found

/-- A segment without a scope next to one with a filter. -/
theorem not_aggregates : ¬ Aggregates (js "pnpm build && pnpm --filter @spc/core test") := by
  intro aggregates
  have whole : parseFilterScope (js "pnpm build && pnpm --filter @spc/core test") =
      some ⟨some [js "@spc/core"], false⟩ := by decide +kernel
  have alone : parseFilterScope (js "pnpm build ") = none := by decide +kernel
  have broad := aggregates.broad (fun _ => []) (js "pnpm build ") (by decide +kernel)
    (by decide +kernel)
  rwa [whole, alone] at broad

end SpecAsCode.Verifier
