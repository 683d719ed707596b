import SpecAsCode.Executor.Patch
import SpecAsCode.Js.Path
import SpecAsCode.Js.ToNumber
import SpecAsCode.Lib.Disk
import SpecAsCode.Lib.Interrupted

/-!
# Patch commands

`spc patch verify` and `spc patch apply` stage the entries of a file of change ops as they are
parsed, without the schema that the answers of a model go through.
-/

namespace SpecAsCode.Cli

open SpecAsCode.Js
open SpecAsCode.Executor
open SpecAsCode.Lib
open SpecAsCode.Text

/-! ## Files -/

abbrev Files := Disk JsString (List Octet)

/-- The names in an absolute path that is normalized. -/
def pathNames (path : JsString) : List JsString :=
  (path.splitOn (unit '/')).filter fun part => part ≠ []

/-- A path that no system call takes. -/
def hasNul (path : JsString) : Bool :=
  path.contains 0

/-- `readFileSync(path, "utf8")`; none when it throws. -/
def readFileSync (disk : Files) (path : JsString) : Option JsString :=
  if hasNul path || Path.hasTrailingSlash path then none
  else (disk.read (pathNames path)).map decodeUtf8

/-- `mkdirSync(path, { recursive: true })`. -/
def mkdirSync (disk : Files) (path : JsString) : Option Files :=
  if hasNul path then none else disk.make (pathNames path)

/-- `writeFileSync(path, data, "utf8")`, which takes strings only. -/
def writeFileSync (disk : Files) (path : JsString) (data : JsValue) :
    Option (Files × Place JsString) :=
  match data with
  | .string text =>
      if hasNul path || Path.hasTrailingSlash path then none
      else disk.write (pathNames path) (encodeUtf8 text)
  | _ => none

/-- `rmSync(path, { force: true })`, which throws for a directory only. -/
def rmSync (disk : Files) (path : JsString) : Disk.Removal JsString (List Octet) :=
  if hasNul path then
    .refused
  else if Path.hasTrailingSlash path then
    match disk.stat (pathNames path) with
    | some .directory => .refused
    | _ => .absent
  else
    disk.remove (pathNames path)

/-! ## Occurrences of an anchor -/

/-- `haystack.indexOf(needle, position)`. -/
def indexOf (haystack needle : JsString) (position : Nat) : Option Nat :=
  let start := min position haystack.length
  (List.range' start (haystack.length + 1 - start)).find? fun i =>
    needle.isPrefixOf (haystack.drop i)

/-- The loop of `countOccurrences`, for some rounds. -/
def countLoop (haystack needle : JsString) : Nat → Nat → Nat → Option Nat
  | 0, _, _ => none
  | rounds + 1, count, i =>
      match indexOf haystack needle i with
      | none => some count
      | some found => countLoop haystack needle rounds (count + 1) (found + 1)

/-- `countOccurrences`; none when its loop does not end, since it has more rounds here than the
haystack has places. -/
def occurrencesOf (haystack needle : JsString) : Option Nat :=
  countLoop haystack needle (haystack.length + 2) 0 0

/-! ## Staging -/

/-- How a computation over the ops ends, if it does. -/
inductive Outcome (Result : Type) where
  | loops
  | threw
  | refused (code : JsString)
  | done (result : Result)

def Outcome.bind {First Second : Type} (outcome : Outcome First)
    (next : First → Outcome Second) : Outcome Second :=
  match outcome with
  | .loops => .loops
  | .threw => .threw
  | .refused code => .refused code
  | .done result => next result

/-- A refusal whose message holds the given parts; none is a part that cannot be put into it. -/
def refuse {Result : Type} (code : JsString) (parts : List (Option JsString)) : Outcome Result :=
  if parts.all Option.isSome then .refused code else .threw

/-- What a `Map` tells the paths of ops apart by: texts by what they say, other values that are
not objects likewise, and objects by the op they were read in. -/
inductive PathKey where
  | text (path : JsString)
  | primitive (display : JsString)
  | reference (op : Nat)
  deriving DecidableEq

def PathKey.of (op : Nat) : JsValue → PathKey
  | .string path => .text path
  | .array _ => .reference op
  | .object _ => .reference op
  | other => .primitive other.display

/-- The argument that `path.join` takes. -/
def PathKey.asText : PathKey → Option JsString
  | .text path => some path
  | _ => none

/-- What the loop keeps: the contents to write, their labels and the paths to delete. -/
structure OpStaging where
  overlay : OrderedMap PathKey JsValue
  labels : OrderedMap PathKey WriteLabel
  deletes : List PathKey

def OpStaging.empty : OpStaging :=
  ⟨OrderedMap.empty, OrderedMap.empty, []⟩

def OpStaging.delete (staging : OpStaging) (key : PathKey) : OpStaging where
  overlay := staging.overlay.delete key
  labels := staging.labels.delete key
  deletes := if key ∈ staging.deletes then staging.deletes else staging.deletes ++ [key]

def OpStaging.write (staging : OpStaging) (key : PathKey) (content : JsValue) (label : WriteLabel) :
    OpStaging where
  overlay := staging.overlay.set key content
  labels := staging.labels.set key label
  deletes := staging.deletes.filter fun other => other ≠ key

/-- `value <= 60`. -/
def atMostSixty (value : JsValue) : Option Bool :=
  value.toNumber.map fun number => number ≠ .nan && !(JsNumber.ofNat 60).less number

/-- `truncate`, whose argument is taken for a string; none when it throws. -/
def truncateText : JsValue → Option JsString
  | .string text => some (truncate text)
  | .array items =>
      if items.length ≤ 60 then (JsValue.array items).toText
      else (JsValue.array (items.take 60)).toText.map fun text => text ++ js "…"
  | .object members =>
      match atMostSixty (lookup (js "length") members) with
      | some true => (JsValue.object members).toText
      | _ => none
  | _ => none

section Staging

variable (sha256Hex : List Octet → JsString) (disk : Files) (root : JsString)

/-- The text that an op is a patch of: the staged content, or what the file holds. -/
def patchBase (staging : OpStaging) (op : Nat) (path : JsValue) : Option JsValue :=
  match staging.overlay.get? (PathKey.of op path) with
  | some content => some content
  | none =>
      match path with
      | .string text => (readFileSync disk (Path.join root text)).map .string
      | _ => none

/-- An op that is neither of the others is taken for a patch. -/
def stagePatch (staging : OpStaging) (op : Nat) (change : JsValue) : Outcome OpStaging :=
  let path := change.property (js "path")
  let anchor := change.property (js "anchor")
  match patchBase disk root staging op path with
  | none => refuse PATCH_BASE_MISSING [path.toText]
  | some (.string base) =>
      let declared := change.property (js "baseDigest")
      if declared.asString ≠ some (fileDigest sha256Hex base) then
        refuse PATCH_BASE_MISMATCH [path.toText, declared.toText]
      else
        match anchor.toText with
        | none => .threw
        | some needle =>
            match occurrencesOf base needle with
            | none => .loops
            | some 0 => refuse PATCH_ANCHOR_ABSENT [path.toText, truncateText anchor]
            | some 1 =>
                match (change.property (js "replacement")).toText with
                | none => .threw
                | some replacement =>
                    .done (staging.write (PathKey.of op path)
                      (.string (replaceFirst base needle replacement)) .patched)
            | some _ => refuse PATCH_ANCHOR_NOT_UNIQUE [truncateText anchor, path.toText]
  -- the digest is made of strings only
  | some _ => .threw

/-- One pass of the loop of `stageChanges`. -/
def stageOp (staging : OpStaging) (op : Nat) (change : JsValue) : Outcome OpStaging :=
  let key := PathKey.of op (change.property (js "path"))
  let kind := (change.property (js "op")).asString
  if change.isNullish then
    .threw
  else if kind = some (js "delete") then
    .done (staging.delete key)
  else if kind = some (js "create") then
    .done (staging.write key (change.property (js "content")) .created)
  else if kind = some (js "update") then
    .done (staging.write key (change.property (js "content")) .modified)
  else
    stagePatch sha256Hex disk root
      { staging with deletes := staging.deletes.filter fun other => other ≠ key } op change

/-- The loop, from the op with a number. -/
def stageOps (staging : OpStaging) : Nat → List JsValue → Outcome OpStaging
  | _, [] => .done staging
  | op, change :: rest =>
      (stageOp sha256Hex disk root staging op change).bind fun next => stageOps next (op + 1) rest

structure OpWrite where
  key : PathKey
  content : JsValue
  label : WriteLabel

structure StagedOps where
  writes : List OpWrite
  deletes : List PathKey

/-- The paths that are strings. -/
def StagedOps.paths (staged : StagedOps) : List JsString :=
  (staged.writes.map OpWrite.key ++ staged.deletes).filterMap PathKey.asText

def OpStaging.result (staging : OpStaging) : StagedOps where
  writes := staging.overlay.entries.map fun (key, content) =>
    ⟨key, content, (staging.labels.get? key).getD .modified⟩
  deletes := staging.deletes

/-- `stageChanges` on what the file of ops holds. -/
def stageRaw (changes : List JsValue) : Outcome StagedOps :=
  (stageOps sha256Hex disk root .empty 0 changes).bind fun staging => .done staging.result

/-! ## Verifying -/

/-- `runPatchVerify` up to its verdict, which is the number of the ops. -/
def runPatchVerify (changes : List JsValue) : Outcome Nat :=
  if changes = [] then
    .threw
  else
    (stageRaw sha256Hex disk root changes).bind fun _ => .done changes.length

end Staging

/-! ## Applying -/

/-- The disk, and the places where entries were written or removed. -/
structure Progress where
  disk : Files
  touched : List (Place JsString)

/-- The progress of a loop, and whether it goes on or an error has been thrown. -/
abbrev Going := Except Progress Progress

section Applying

variable (root : JsString)

def applyWrite (progress : Progress) (write : OpWrite) : Going :=
  match write.key.asText with
  | none => .error progress
  | some path =>
      let full := Path.join root path
      match mkdirSync progress.disk (Path.dirname full) with
      | none => .error progress
      | some made =>
          match writeFileSync made full write.content with
          | none => .error { progress with disk := made }
          | some (disk, place) => .ok ⟨disk, progress.touched ++ [place]⟩

def applyDelete (progress : Progress) (key : PathKey) : Going :=
  match key.asText with
  | none => .error progress
  | some path =>
      match rmSync progress.disk (Path.join root path) with
      | .refused => .error progress
      | .absent => .ok progress
      | .removed place disk => .ok ⟨disk, progress.touched ++ [place]⟩

/-- The loops over the writes and the deletes. -/
def applyAll (progress : Progress) (staged : StagedOps) : Going := do
  let written ← staged.writes.foldlM (applyWrite root) progress
  staged.deletes.foldlM (applyDelete root) written

/-- The names of `path.resolve(root, rel)`. -/
def resolvedNames (rel : JsString) : List JsString :=
  pathNames (if Path.isAbsolute rel then Path.normalize rel else Path.join root rel)

/-- The nearest directory from which names come down that holds a `package.json`. -/
def packageDir (disk : Files) (names : List JsString) : Option (List JsString) :=
  names.inits.reverse.find? fun dir => (disk.stat (dir ++ [js "package.json"])).isSome

def packageDirs (disk : Files) (paths : List JsString) : List (List JsString) :=
  (paths.filterMap fun rel => packageDir disk (resolvedNames root rel).dropLast).eraseDups

/-- The build caches of a directory are removed; an error is let go. -/
def clearCache (dir : List JsString) (progress : Progress) (entry : JsString) : Going :=
  if (js ".tsbuildinfo").isSuffixOf entry then
    match progress.disk.remove (dir ++ [entry]) with
    | .removed place disk => .ok ⟨disk, progress.touched ++ [place]⟩
    | _ => .ok progress
  else
    .ok progress

def clearCaches (progress : Progress) (dir : List JsString) : Going :=
  match progress.disk.list dir with
  | none => .error progress
  | some entries => entries.foldlM (clearCache dir) progress

/-- The line is appended to the log of patches; an error is let go. -/
def appendPatchLog (progress : Progress) (line : List Octet) : Progress :=
  let names := pathNames root ++ [js ".spc"]
  match progress.disk.make names with
  | none => progress
  | some made =>
      let before := (made.read (names ++ [js "patch-log.jsonl"])).getD []
      match made.write (names ++ [js "patch-log.jsonl"]) (before ++ line) with
      | none => { progress with disk := made }
      | some (disk, place) => ⟨disk, progress.touched ++ [place]⟩

/-- What follows when every write and delete has been made. -/
def afterApplying (staged : StagedOps) (line : List Octet) (progress : Progress) : Going := do
  let cleared ← (packageDirs root progress.disk staged.paths).foldlM clearCaches progress
  return appendPatchLog root cleared line

/-- What `runPatchApply` leaves: whether it made every write and delete, and the progress at its
end. -/
structure Applied where
  performed : Bool
  progress : Progress

/-- `runPatchApply`; the line is what it appends to the log. -/
def runPatchApply (sha256Hex : List Octet → JsString) (disk : Files)
    (line : StagedOps → List Octet) (changes : List JsValue) : Outcome Applied :=
  if changes = [] then
    .done ⟨false, disk, []⟩
  else
    match stageRaw sha256Hex disk root changes with
    | .loops => .loops
    | .threw => .threw
    | .refused _ => .done ⟨false, disk, []⟩
    | .done staged =>
        match applyAll root ⟨disk, []⟩ staged with
        | .error progress => .done ⟨false, progress⟩
        | .ok progress => .done ⟨true, reached (afterApplying root staged (line staged) progress)⟩

end Applying

end SpecAsCode.Cli
