import Mathlib.Data.List.Dedup
import SpecAsCode.Core.Diagnostics
import SpecAsCode.Js.Path
import SpecAsCode.Repo.Worktree
import SpecAsCode.Verifier.OracleValidity

/-!
# The scope of a command

The packages that the filters of a `pnpm` command name, where the workspace has them, and the
tracked files in them.  Directories are spelled relative to the root of the workspace, which is
the empty text; nothing outside of it is seen.
-/

namespace SpecAsCode.Verifier

open SpecAsCode.Js
open SpecAsCode.Core
open SpecAsCode.Repo
open SpecAsCode.Text

/-! ## Filters -/

/-- `CacheScope`: no packages for the whole workspace. -/
structure CacheScope where
  packages : Option (List JsString)
  withDeps : Bool
  deriving DecidableEq

/-- `command.trim().split(/\s*(?:&&|\|\||;)\s*/)`, up to white space. -/
def splitCompound : JsString → List JsString
  | [] => [[]]
  | [code] => if code = unit ';' then [[], []] else [[code]]
  | code :: next :: rest =>
      if (code = unit '&' ∧ next = unit '&') ∨ (code = unit '|' ∧ next = unit '|') then
        [] :: splitCompound rest
      else if code = unit ';' then
        [] :: splitCompound (next :: rest)
      else
        match splitCompound (next :: rest) with
        | [] => [[code]]
        | segment :: segments => (code :: segment) :: segments

/-- The variables of `parseFilterScope`. -/
structure FilterScan where
  filters : List JsString
  withDeps : Bool
  sawScope : Bool
  sawRecursive : Bool

/-- One filter. -/
def FilterScan.add (scan : FilterScan) (spec : JsString) : FilterScan :=
  let deps := (js "...").isSuffixOf spec
  { scan with
    filters := scan.filters ++ [if deps then spec.take (spec.length - 3) else spec]
    withDeps := scan.withDeps || deps
    sawScope := true }

/-- The flags after `pnpm`. -/
def scanTokens (scan : FilterScan) : List JsString → FilterScan
  | [] => scan
  | [token] =>
      if token = js "-r" ∨ token = js "--recursive" then
        { scan with sawRecursive := true, sawScope := true }
      else if startsWith token (js "--filter=") then
        scan.add (token.drop 9)
      else
        scan
  | token :: next :: rest =>
      if token = js "-r" ∨ token = js "--recursive" then
        scanTokens { scan with sawRecursive := true, sawScope := true } (next :: rest)
      else if startsWith token (js "--filter=") then
        scanTokens (scan.add (token.drop 9)) (next :: rest)
      else if token = js "--filter" then
        scanTokens (scan.add next) rest
      else
        scanTokens scan (next :: rest)

/-- One segment of a compound command. -/
def scanSegment (scan : FilterScan) (segment : JsString) : FilterScan :=
  match splitSpaces segment with
  | [] => scan
  | first :: tokens => if first = js "pnpm" then scanTokens scan tokens else scan

def parseFilterScope (command : JsString) : Option CacheScope :=
  let scan := (splitCompound command).foldl scanSegment ⟨[], false, false, false⟩
  if !scan.sawScope then
    none
  else if scan.sawRecursive then
    some ⟨none, true⟩
  else
    some ⟨some (sortUnique scan.filters), scan.withDeps⟩

example : parseFilterScope (js "pnpm build && pnpm --filter @spc/core... --filter=@spc/cli test") =
    some ⟨some [js "@spc/cli", js "@spc/core"], true⟩ := by decide +kernel

/-! ## The workspace -/

/-- A worktree with the answer of git to whether it is one. -/
structure Workspace extends Worktree where
  gitAnswers : Bool
  named : ∀ path ∈ paths, isWellFormedText path = true ∧ (0 : CodeUnit) ∉ path

/-- A path in a directory. -/
def inDirectory (directory name : JsString) : JsString :=
  if directory = [] then name else directory ++ js "/" ++ name

/-- The path inside a directory of a file below it. -/
def pathInside (directory path : JsString) : Option JsString :=
  if directory = [] then
    some path
  else if startsWith path (directory ++ js "/") then
    some (path.drop (directory.length + 1))
  else
    none

/-- `path.relative(root, path.join(root, glob))`. -/
def fromRoot (glob : JsString) : JsString :=
  (js "/").intercalate (Path.resolveParts true glob)

namespace Workspace

variable (workspace : Workspace)

/-- The files on disk. -/
def files : List JsString :=
  (workspace.paths.filter fun path => (workspace.tree path).isSome).dedup

theorem mem_paths {path : JsString} {content : List Octet}
    (read : workspace.tree path = some content) : path ∈ workspace.paths := by
  by_contra unlisted
  rw [(workspace.listed path unlisted).2.2] at read
  cases read

theorem mem_files {path : JsString} {content : List Octet}
    (read : workspace.tree path = some content) : path ∈ workspace.files := by
  rw [files, List.mem_dedup, List.mem_filter, read]
  exact ⟨workspace.mem_paths read, rfl⟩

/-- `readdirSync(directory)`. -/
def children (directory : JsString) : List JsString :=
  sortUnique (workspace.files.filterMap fun path =>
    (pathInside directory path).map fun rest => rest.takeWhile fun code => code != unit '/')

/-- The `package.json` of a directory; `none` when it cannot be read as an object. -/
def packageJson (directory : JsString) : Option JsValue :=
  ((workspace.tree (inDirectory directory (js "package.json"))).bind fun octets =>
    parseJson (decodeUtf8 octets)).bind fun json => if json.isNullish then none else some json

/-- Whether a directory has a `package.json`. -/
def hasPackage (directory : JsString) : Bool :=
  (workspace.tree (inDirectory directory (js "package.json"))).isSome

/-- The capture of `/^\s*-\s*(\S+)/` in a line. -/
def globOf (line : JsString) : Option JsString :=
  match line.dropWhile isSpace with
  | [] => none
  | mark :: rest =>
      let glob := (rest.dropWhile isSpace).takeWhile fun code => !isSpace code
      if mark = unit '-' ∧ glob ≠ [] then some glob else none

/-- The directories a glob stands for; a file cannot be listed. -/
def candidates (glob : JsString) : Option (List JsString) :=
  match glob.idxOf? (unit '*') with
  | none => some [fromRoot glob]
  | some star =>
      let directory := fromRoot (glob.take star)
      if (workspace.tree directory).isSome then
        none
      else
        some (((workspace.children directory).map (inDirectory directory)).filter
          workspace.hasPackage)

/-- The directory of a package is known by the name of the package. -/
def register (byName : OrderedMap JsString JsString) (directory : JsString) :
    Option (OrderedMap JsString JsString) :=
  if workspace.hasPackage directory then
    (workspace.packageJson directory).map fun json =>
      match (json.property (js "name")).asString with
      | some name => if name = [] then byName else byName.set name directory
      | none => byName
  else
    some byName

/-- `workspacePackageDirs`; `none` when it throws. -/
def packageDirs : Option (OrderedMap JsString JsString) :=
  match workspace.tree (js "pnpm-workspace.yaml") with
  | none => workspace.register .empty []
  | some octets =>
      let globs := ((decodeUtf8 octets).splitOn (unit '\n')).filterMap globOf
      globs.foldlM (fun byName glob =>
        (workspace.candidates glob).bind fun directories =>
          directories.foldlM workspace.register byName) .empty

/-- The packages of the workspace that a record of dependencies names. -/
def workspaceDeps (record : JsValue) : Option (List JsString) :=
  match record with
  | .object members =>
      let specs : Option (List (JsString × JsString)) :=
        members.mapM fun member => (JsValue.toText member.2).map fun spec => (member.1, spec)
      specs.map fun specs =>
        (specs.filter fun entry => startsWith entry.2 (js "workspace:")).map Prod.fst
  | _ => some []

/-- The dependencies of a package inside the workspace. -/
def dependencies (directory : JsString) : Option (List JsString) :=
  (workspace.packageJson directory).bind fun json =>
    (workspaceDeps (json.property (js "dependencies"))).bind fun dependencies =>
      (workspaceDeps (json.property (js "devDependencies"))).map fun devDependencies =>
        dependencies ++ devDependencies

end Workspace

/-- The known names that are not seen. -/
def unseen (byName : OrderedMap JsString JsString) (seen : List JsString) : List JsString :=
  (byName.entries.map Prod.fst).filter fun name => name ∉ seen

theorem unseen_cons_le (byName : OrderedMap JsString JsString) (name : JsString)
    (seen : List JsString) :
    (unseen byName (name :: seen)).length ≤ (unseen byName seen).length := by
  refine List.Sublist.length_le (List.monotone_filter_right _ fun other => ?_)
  simp only [List.mem_cons, not_or, decide_eq_true_eq]
  exact And.right

theorem unseen_cons_lt {byName : OrderedMap JsString JsString} {name directory : JsString}
    {seen : List JsString} (fresh : name ∉ seen) (known : byName.get? name = some directory) :
    (unseen byName (name :: seen)).length < (unseen byName seen).length := by
  have listed : name ∈ unseen byName seen :=
    List.mem_filter.mpr ⟨List.mem_map.mpr ⟨_, OrderedMap.get?_eq_some.mp known, rfl⟩,
      decide_eq_true fresh⟩
  have fewer : unseen byName (name :: seen) =
      (unseen byName seen).filter fun other => other ≠ name := by
    rw [unseen, unseen, List.filter_filter]
    refine List.filter_congr fun other _ => ?_
    simp [List.mem_cons, not_or]
  rw [fewer]
  exact List.length_filter_lt_length_iff_exists.mpr ⟨name, listed, by simp⟩

/-- The loop of `resolveScopeDirs` over its queue. -/
def closeOver (workspace : Workspace) (byName : OrderedMap JsString JsString) (withDeps : Bool)
    (seen : List JsString) : List JsString → List JsString → Option (List JsString)
  | [], directories => some directories
  | name :: queue, directories =>
      if name ∈ seen then
        closeOver workspace byName withDeps seen queue directories
      else
        match _known : byName.get? name with
        | none => closeOver workspace byName withDeps (name :: seen) queue directories
        | some directory =>
            if withDeps then
              match workspace.dependencies directory with
              | none => none
              | some names =>
                  closeOver workspace byName withDeps (name :: seen)
                    (queue ++ names.filter fun other => other ∉ name :: seen)
                    (directories ++ [directory])
            else
              closeOver workspace byName withDeps (name :: seen) queue
                (directories ++ [directory])
termination_by queue => ((unseen byName seen).length, queue.length)
decreasing_by
  · exact Prod.Lex.right _ (Nat.lt_succ_self _)
  · rcases Nat.eq_or_lt_of_le (unseen_cons_le byName name seen) with same | less
    · rw [same]
      exact Prod.Lex.right _ (Nat.lt_succ_self _)
    · exact Prod.Lex.left _ _ less
  · exact Prod.Lex.left _ _ (unseen_cons_lt ‹_› ‹_›)
  · exact Prod.Lex.left _ _ (unseen_cons_lt ‹_› ‹_›)

/-- `resolveScopeDirs`; `none` when it throws. -/
def resolveScopeDirs (workspace : Workspace) (scope : CacheScope) : Option (List JsString) :=
  workspace.packageDirs.bind fun byName =>
    match scope.packages with
    | none => some (byName.entries.map Prod.snd).eraseDups
    | some names => (closeOver workspace byName scope.withDeps [] names []).map List.eraseDups

/-! ## Tracked files -/

/-- A path as `git ls-files` prints it. -/
def lsFilesName (path : JsString) : JsString :=
  if printedName path = path then path else unit '\x22' :: (printedName path ++ [unit '\x22'])

/-- The paths in the index. -/
def Workspace.tracked (workspace : Workspace) : List JsString :=
  (workspace.paths.filter fun path => (workspace.index path).isSome).dedup

/-- A path that is left out of every scope. -/
def isExcluded (file : JsString) : Bool :=
  includes file (js "node_modules") || (segments file).contains (js "dist")

/-- A path in a directory, as the prefixes of `trackedFiles` decide it. -/
def isUnder (directory file : JsString) : Bool :=
  startsWith file (directory ++ js "/") || file ++ js "/" == directory

def trackedFiles (workspace : Workspace) (directories : List JsString) : List JsString :=
  if directories = [] ∨ workspace.gitAnswers = false then
    []
  else
    ((workspace.tracked.map lsFilesName).filter fun file =>
      file != [] && !isExcluded file && directories.any fun directory =>
        isUnder directory file).insertionSort fun first second => first ≤ second

theorem mem_trackedFiles {workspace : Workspace} {directories : List JsString} {file : JsString} :
    file ∈ trackedFiles workspace directories ↔
      workspace.gitAnswers = true ∧ file ≠ [] ∧ isExcluded file = false ∧
        (∃ path ∈ workspace.tracked, lsFilesName path = file) ∧
          ∃ directory ∈ directories, isUnder directory file = true := by
  rw [trackedFiles]
  by_cases answers : workspace.gitAnswers = true
  · by_cases none : directories = []
    · simp [none]
    · simp [none, answers, List.mem_filter, and_comm, and_assoc]
  · simp [answers]

end SpecAsCode.Verifier
