import SpecAsCode.Core.RelPath
import SpecAsCode.Js.Decimal
import SpecAsCode.Js.OrderedMap
import SpecAsCode.Lib.Occurrence
import SpecAsCode.Text.Utf8

/-!
# Staging of proposed changes

`stageChanges` applies a list of proposed changes to an overlay of texts in memory, and
the writes and deletes of the overlay are performed afterwards.
-/

namespace SpecAsCode.Executor

open SpecAsCode.Js
open SpecAsCode.Core
open SpecAsCode.Text

/-! ## Worktrees -/

/-- The files of a worktree by their normalized path. -/
abbrev Tree := JsString → Option (List Octet)

/-- The tree with the file at a path written, or removed. -/
def Tree.set (tree : Tree) (path : JsString) (content : Option (List Octet)) : Tree :=
  fun key => if key = normalizeRelPath path then content else tree key

@[simp]
theorem Tree.set_self (tree : Tree) (path : JsString) (content : Option (List Octet)) :
    tree.set path content (normalizeRelPath path) = content := by
  rw [Tree.set, if_pos rfl]

theorem Tree.set_ne (tree : Tree) {path key : JsString} (other : key ≠ normalizeRelPath path)
    (content : Option (List Octet)) : tree.set path content key = tree key := by
  rw [Tree.set, if_neg other]

/-! ## Proposed changes -/

/-- A change a result proposes.  The schema asks for an anchor that is not empty. -/
inductive ProposedChange where
  | create (path content : JsString)
  | update (path content : JsString)
  | patch (path baseDigest anchor replacement : JsString) (nonempty : anchor ≠ [])
  | delete (path : JsString)

def ProposedChange.path : ProposedChange → JsString
  | .create path _ => path
  | .update path _ => path
  | .patch path _ _ _ _ => path
  | .delete path => path

def PATCH_BASE_MISSING : JsString := js "PATCH_BASE_MISSING"
def PATCH_BASE_MISMATCH : JsString := js "PATCH_BASE_MISMATCH"
def PATCH_ANCHOR_ABSENT : JsString := js "PATCH_ANCHOR_ABSENT"
def PATCH_ANCHOR_NOT_UNIQUE : JsString := js "PATCH_ANCHOR_NOT_UNIQUE"

/-- What is done to a file that is written. -/
inductive WriteLabel where
  | created
  | modified
  | patched
  deriving DecidableEq

structure StagedWrite where
  path : JsString
  content : JsString
  label : WriteLabel

/-- The writes and the deletes of a change set that was not refused. -/
structure StagedChanges where
  writes : List StagedWrite
  deletes : List JsString

/-- Why a change set is refused. -/
structure StageRefusal where
  code : JsString
  message : JsString

/-! ## Strings -/

/-- The number of places at which the needle, which is not empty, starts. -/
def countOccurrences (haystack needle : JsString) : Nat :=
  Occurrence.count needle haystack

/-- `s` when it is short, and its first 60 code units otherwise. -/
def truncate (text : JsString) : JsString :=
  if text.length ≤ 60 then text else text.take 60 ++ js "…"

/-- What a replacement text stands for: `$$` is a dollar sign, and `$&`, `` $` `` and
`$'` are the matched text and the texts before and after it. -/
def getSubstitution (matched before after : JsString) : JsString → JsString
  | code :: next :: rest =>
      if code = unit '$' then
        if next = unit '$' then
          unit '$' :: getSubstitution matched before after rest
        else if next = unit '&' then
          matched ++ getSubstitution matched before after rest
        else if next = unit '\x60' then
          before ++ getSubstitution matched before after rest
        else if next = unit '\x27' then
          after ++ getSubstitution matched before after rest
        else
          code :: getSubstitution matched before after (next :: rest)
      else
        code :: getSubstitution matched before after (next :: rest)
  | text => text

/-- `text.replace(pattern, replacement)` for a pattern that is a string. -/
def replaceFirst (text pattern replacement : JsString) : JsString :=
  match Occurrence.split pattern text with
  | none => text
  | some (before, after) => before ++ getSubstitution pattern before after replacement ++ after

example : replaceFirst (js "a+b") (js "+") (js "[$&$$$1]") = js "a[+$$1]b" := by decide +kernel

/-! ## Staging -/

variable (sha256Hex : List Octet → JsString)

/-- The digest of the text as it is written to a file. -/
def fileDigest (content : JsString) : JsString :=
  js "sha256:" ++ sha256Hex (encodeUtf8 content)

/-- What the loop keeps: the texts to write, their labels and the paths to delete. -/
structure Staging where
  overlay : OrderedMap JsString JsString
  labels : OrderedMap JsString WriteLabel
  deletes : List JsString

/-- The state before the first change. -/
def Staging.empty : Staging :=
  ⟨OrderedMap.empty, OrderedMap.empty, []⟩

def Staging.write (staging : Staging) (path content : JsString) (label : WriteLabel) : Staging where
  overlay := staging.overlay.set path content
  labels := staging.labels.set path label
  deletes := staging.deletes.filter fun other => other ≠ path

def Staging.delete (staging : Staging) (path : JsString) : Staging where
  overlay := staging.overlay.delete path
  labels := staging.labels.delete path
  deletes := if path ∈ staging.deletes then staging.deletes else staging.deletes ++ [path]

/-- The text a patch is applied to: the staged one, or what the worktree holds. -/
def baseText (tree : Tree) (staging : Staging) (path : JsString) : Option JsString :=
  match staging.overlay.get? path with
  | some text => some text
  | none => (tree (normalizeRelPath path)).map decodeUtf8

def baseMissing (path : JsString) : StageRefusal where
  code := PATCH_BASE_MISSING
  message := PATCH_BASE_MISSING ++ js ": " ++ path ++
    js " does not exist; a patch op needs an existing base"

def baseMismatch (path actualDigest baseDigest : JsString) : StageRefusal where
  code := PATCH_BASE_MISMATCH
  message := PATCH_BASE_MISMATCH ++ js ": " ++ path ++ js " content digests to " ++ actualDigest ++
    js ", but the op declared " ++ baseDigest ++
    js ("; the file changed since it was read - re-read and restate, nothing was applied" ++
      " - compose multi-op chains in one invocation with spc patch build --batch <spec.json>," ++
      " or a single follow-up with spc patch build --after <ops.json>")

def anchorAbsent (path anchor : JsString) : StageRefusal where
  code := PATCH_ANCHOR_ABSENT
  message := PATCH_ANCHOR_ABSENT ++ js ": " ++ path ++ js " does not contain the anchor \"" ++
    truncate anchor ++ js "\" exactly; anchors match raw bytes with no normalization"

def anchorNotUnique (path anchor : JsString) (occurrences : Nat) : StageRefusal where
  code := PATCH_ANCHOR_NOT_UNIQUE
  message := PATCH_ANCHOR_NOT_UNIQUE ++ js ": anchor \"" ++ truncate anchor ++ js "\" occurs " ++
    natText occurrences ++ js " times in " ++ path ++
    js ("; anchor on a longer unique span instead - compose multi-op chains in one invocation" ++
      " with spc patch build --batch <spec.json>, or a single follow-up with" ++
      " spc patch build --after <ops.json>")

/-- One pass of the loop. -/
def stageChange (tree : Tree) (staging : Staging) : ProposedChange → Except StageRefusal Staging
  | .delete path => .ok (staging.delete path)
  | .create path content => .ok (staging.write path content .created)
  | .update path content => .ok (staging.write path content .modified)
  | .patch path baseDigest anchor replacement _ =>
      match baseText tree staging path with
      | none => .error (baseMissing path)
      | some base =>
          if fileDigest sha256Hex base ≠ baseDigest then
            .error (baseMismatch path (fileDigest sha256Hex base) baseDigest)
          else if countOccurrences base anchor = 0 then
            .error (anchorAbsent path anchor)
          else if 1 < countOccurrences base anchor then
            .error (anchorNotUnique path anchor (countOccurrences base anchor))
          else
            .ok (staging.write path (replaceFirst base anchor replacement) .patched)

/-- The loop over the changes. -/
def stageAll (tree : Tree) (changes : List ProposedChange) : Except StageRefusal Staging :=
  changes.foldlM (stageChange sha256Hex tree) Staging.empty

/-- What the state after the last change is returned as. -/
def Staging.result (staging : Staging) : StagedChanges where
  writes := staging.overlay.entries.map fun (path, content) =>
    ⟨path, content, (staging.labels.get? path).getD .modified⟩
  deletes := staging.deletes

def stageChanges (tree : Tree) (changes : List ProposedChange) :
    Except StageRefusal StagedChanges :=
  (stageAll sha256Hex tree changes).map Staging.result

/-! ## Writing -/

/-- `writeFileSync(full, write.content, "utf8")`. -/
def performWrite (tree : Tree) (write : StagedWrite) : Tree :=
  tree.set write.path (some (encodeUtf8 write.content))

/-- `rmSync(path, { force: true })`. -/
def performDelete (tree : Tree) (path : JsString) : Tree :=
  tree.set path none

/-- The writes of a staged set, and then its deletes. -/
def perform (tree : Tree) (staged : StagedChanges) : Tree :=
  staged.deletes.foldl performDelete (staged.writes.foldl performWrite tree)

end SpecAsCode.Executor
