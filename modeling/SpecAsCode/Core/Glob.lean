import SpecAsCode.Core.RelPath

/-!
# Glob patterns

A pattern is translated into a regular expression without flags: `**` stands for whole
segments, or for any text at the end of a pattern, `*` for a part of one segment and `?`
for one code unit of it.
-/

namespace SpecAsCode.Core

open SpecAsCode.Js

/-- A part of the regular expression. -/
inductive Piece where
  /-- A character that stands for itself. -/
  | literal (code : CodeUnit)
  /-- `[^/]`. -/
  | one
  /-- `[^/]*`. -/
  | run
  /-- `.*`. -/
  | tail
  /-- `(?:[^/]+/)*`. -/
  | segments
  deriving DecidableEq

/-- The slash. -/
def slash : CodeUnit :=
  unit '/'

/-- What `.` does not match. -/
def isLineTerminator (code : CodeUnit) : Bool :=
  code.val == 10 || code.val == 13 || code.val == 0x2028 || code.val == 0x2029

/-- A class of code units repeated any number of times, before the rest of the expression. -/
def matchStar (allowed : CodeUnit → Bool) (rest : JsString → Bool) : JsString → Bool
  | [] => rest []
  | code :: text => rest (code :: text) || (allowed code && matchStar allowed rest text)

/-- Whole segments repeated any number of times, before the rest of the expression.
`inside` is whether a segment has been started. -/
def matchSegments (rest : JsString → Bool) : Bool → JsString → Bool
  | false, [] => rest []
  | true, [] => false
  | false, code :: text =>
      rest (code :: text) || (code != slash && matchSegments rest true text)
  | true, code :: text =>
      if code = slash then matchSegments rest false text else matchSegments rest true text

/-- The expression matches the whole text. -/
def matchPieces : List Piece → JsString → Bool
  | [], text => text.isEmpty
  | .literal _ :: _, [] => false
  | .literal letter :: pieces, code :: text => code == letter && matchPieces pieces text
  | .one :: _, [] => false
  | .one :: pieces, code :: text => code != slash && matchPieces pieces text
  | .run :: pieces, text => matchStar (fun code => code != slash) (matchPieces pieces) text
  | .tail :: pieces, text => matchStar (fun code => !isLineTerminator code) (matchPieces pieces) text
  | .segments :: pieces, text => matchSegments (matchPieces pieces) false text

/-- `segmentToRegex`: the characters are escaped, so each stands for itself. -/
def segmentToRegex (segment : JsString) : List Piece :=
  segment.map fun code =>
    if code = unit '*' then .run else if code = unit '?' then .one else .literal code

/-- The expression of the segments of a pattern. -/
def segmentsToRegex : List JsString → List Piece
  | [] => []
  | [segment] => if segment = js "**" then [.tail] else segmentToRegex segment
  | segment :: next :: rest =>
      if segment = js "**" then
        .segments :: segmentsToRegex (next :: rest)
      else
        segmentToRegex segment ++ .literal slash :: segmentsToRegex (next :: rest)

def globToRegExp (pattern : JsString) : List Piece :=
  segmentsToRegex (segments (normalizeRelPath pattern))

def globMatch (pattern path : JsString) : Bool :=
  matchPieces (globToRegExp pattern) (normalizeRelPath path)

def globMatchAny (patterns : List JsString) (path : JsString) : Bool :=
  patterns.any fun pattern => globMatch pattern path

/-- The segment has a wildcard in it. -/
def isWild (segment : JsString) : Bool :=
  segment == js "**" || segment.contains (unit '*') || segment.contains (unit '?')

/-- The segments before the first one with a wildcard. -/
def literalSegments (pattern : JsString) : List JsString :=
  (segments (normalizeRelPath pattern)).takeWhile fun segment => !isWild segment

/-- Segments joined by slashes. -/
def joinSegments (parts : List JsString) : JsString :=
  [slash].intercalate parts

def literalPrefix (pattern : JsString) : JsString :=
  joinSegments (literalSegments pattern)

def patternsOverlap (a b : JsString) : Bool :=
  if normalizeRelPath a = normalizeRelPath b then
    true
  else if literalPrefix a = [] ∨ literalPrefix b = [] then
    true
  else
    matchPieces (globToRegExp a) (literalPrefix b) || matchPieces (globToRegExp b) (literalPrefix a)

example : globMatch (js "src/**/*.ts") (js "./src/a/b.ts") = true := by decide +kernel

example : patternsOverlap (js "src/a/**") (js "src/b/**") = false := by decide +kernel

end SpecAsCode.Core
