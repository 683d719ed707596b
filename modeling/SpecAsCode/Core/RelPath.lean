import SpecAsCode.Js.JsString
import Mathlib.Data.List.SplitOn

/-!
# Relative paths

The spelling of a path inside the repository, and which spellings are safe.
-/

namespace SpecAsCode.Core

open SpecAsCode.Js

/-- `p.replace(/\\/g, "/")`. -/
def forwardSlashes (path : JsString) : JsString :=
  path.map fun code => if code = unit '\\' then unit '/' else code

/-- The text without the `./` it starts with, as often as it does. -/
def dropDotSlash : JsString → JsString
  | first :: second :: rest =>
      if first = unit '.' ∧ second = unit '/' then
        dropDotSlash rest
      else
        first :: second :: rest
  | text => text

/-- A reversed text without the slashes the text ends in, but for its first code unit. -/
def dropLeadingSlashes : JsString → JsString
  | first :: second :: rest =>
      if first = unit '/' then dropLeadingSlashes (second :: rest) else first :: second :: rest
  | text => text

def normalizeRelPath (path : JsString) : JsString :=
  (dropLeadingSlashes (dropDotSlash (forwardSlashes path)).reverse).reverse

/-- The parts of a path between its slashes. -/
def segments (path : JsString) : List JsString :=
  path.splitOn (unit '/')

/-- `/^[a-zA-Z]:/`. -/
def startsWithDrive : JsString → Bool
  | letter :: colon :: _ =>
      ((65 ≤ letter.val && letter.val ≤ 90) || (97 ≤ letter.val && letter.val ≤ 122)) &&
        colon == unit ':'
  | _ => false

def isSafeRelativePath (path : JsString) : Bool :=
  if normalizeRelPath path = [] then
    false
  else if startsWith (normalizeRelPath path) (js "/") || startsWithDrive (normalizeRelPath path) then
    false
  else
    (segments (normalizeRelPath path)).all fun segment =>
      segment != [] && segment != js "." && segment != js ".."

example : normalizeRelPath (js ".\\./src/a.ts//") = js "src/a.ts" := by decide +kernel

end SpecAsCode.Core
