import SpecAsCode.Schema.Evidence

/-!
# Oracle validity and red eligibility

A red record establishes a flip only when its oracle could be evaluated.  The
classification reads the recorded command and output: it calls an oracle invalid
only when the output carries a transform failure and every diagnostic names the
single test file of the command.
-/

namespace SpecAsCode.Verifier

open SpecAsCode.Js
open SpecAsCode.Schema

/-- The `\d` class. -/
def isDigit (code : CodeUnit) : Bool :=
  48 ≤ code.val && code.val < 58

/-- An ASCII letter. -/
def isLetter (code : CodeUnit) : Bool :=
  (65 ≤ code.val && code.val ≤ 90) || (97 ≤ code.val && code.val ≤ 122)

/-- The lower case of an ASCII letter, for the `i` flag on an ASCII pattern. -/
def lowerAscii (code : CodeUnit) : CodeUnit :=
  if 65 ≤ code.val && code.val ≤ 90 then code + 32 else code

/-- The text after the last slash or backslash. -/
def afterLastSlash (text : JsString) : JsString :=
  (text.reverse.takeWhile fun code => code != unit '/' && code != unit '\\').reverse

/-- The endings `.test.ts`, `.spec.mjs` and so on of `TEST_FILE`. -/
def testFileEndings : List JsString :=
  [js ".test.", js ".spec."].flatMap fun kind =>
    [js "", js "c", js "m"].flatMap fun variant =>
      [js "js", js "jsx", js "ts", js "tsx"].map fun language => kind ++ variant ++ language

/-- The class `[\w.@-]` of `TEST_FILE`. -/
def isFileNameUnit (code : CodeUnit) : Bool :=
  isLetter code || isDigit code || code == unit '_' || code == unit '.' ||
    code == unit '@' || code == unit '-'

/-- `TEST_FILE.test(token)`: the class of the file name holds no slash, so the
match is the whole text after the last one. -/
def isTestFile (token : JsString) : Bool :=
  let base := afterLastSlash token
  testFileEndings.any fun ending =>
    ending.isSuffixOf base && ending.length < base.length &&
      (base.take (base.length - ending.length)).all isFileNameUnit

/-- `command.split(/&&|\|\||;|\|/)`. -/
def splitShell : JsString → List JsString
  | [] => [[]]
  | [code] =>
      if code = unit ';' || code = unit '|' then [[], []] else [[code]]
  | code :: next :: rest =>
      if (code = unit '&' && next = unit '&') || (code = unit '|' && next = unit '|') then
        [] :: splitShell rest
      else if code = unit ';' || code = unit '|' then
        [] :: splitShell (next :: rest)
      else
        match splitShell (next :: rest) with
        | [] => [[code]]
        | segment :: segments => (code :: segment) :: segments

/-- `segment.trim().split(/\s+/)`; an empty segment gives one empty token, which
is no test file. -/
def splitSpaces (segment : JsString) : List JsString :=
  (segment.splitOnP isSpace).filter fun token => !token.isEmpty

/-- `raw.replace(/^["']|["']$/g, "")`. -/
def stripQuotes (raw : JsString) : JsString :=
  let isQuote : CodeUnit → Bool := fun code => code == unit '"' || code == unit '\''
  let opened := if (raw.head?.map isQuote).getD false then raw.tail else raw
  if (opened.getLast?.map isQuote).getD false then opened.dropLast else opened

/-- `oraclePathsFromCommand`. -/
def oraclePathsFromCommand (command : JsString) : List JsString :=
  (splitShell command).flatMap fun segment =>
    ((splitSpaces segment).map stripQuotes).filter isTestFile

/-- `TRANSFORM_ENVELOPE.test(output)`: `/Transform failed with \d+ error/i`. -/
def hasTransformEnvelope (output : JsString) : Bool :=
  let opening := js "transform failed with "
  (output.map lowerAscii).tails.any fun tail =>
    opening.isPrefixOf tail &&
      let count := tail.drop opening.length
      (count.takeWhile isDigit) != [] && (js " error").isPrefixOf (count.dropWhile isDigit)

/-- `:\d+:\d+:\s*ERROR:` at the start of a text, with the length it takes. -/
def diagnosticTail (text : JsString) : Option Nat :=
  let line := text.drop 1
  let column := (line.dropWhile isDigit).drop 1
  let message := (column.dropWhile isDigit).drop 1
  let word := message.dropWhile isSpace
  if text.head? = some (unit ':') && line.takeWhile isDigit != [] &&
      (line.dropWhile isDigit).head? = some (unit ':') && column.takeWhile isDigit != [] &&
      (column.dropWhile isDigit).head? = some (unit ':') && (js "ERROR:").isPrefixOf word then
    some (text.length - word.length + 6)
  else
    none

/-- `[^\s:]+:\d+:\d+:\s*ERROR:` at the start of a text: the path and the length of
the match.  The class holds no colon, so the path is the whole run. -/
def diagnosticRun (text : JsString) : Option (JsString × Nat) :=
  let inPath : CodeUnit → Bool := fun code => !isSpace code && code != unit ':'
  let path := text.takeWhile inPath
  if path.isEmpty then
    none
  else
    (diagnosticTail (text.dropWhile inPath)).map fun length => (path, path.length + length)

/-- `DIAGNOSTIC_PATH` at the start of a text: with the optional drive first, then
without it. -/
def diagnosticAt (text : JsString) : Option (JsString × Nat) :=
  let withDrive :=
    if (text.head?.map isLetter).getD false && (text.drop 1).head? = some (unit ':') then
      (diagnosticRun (text.drop 2)).map fun (path, length) => (text.take 2 ++ path, length + 2)
    else
      none
  withDrive.orElse fun _ => diagnosticRun text

/-- The captures of `output.matchAll(DIAGNOSTIC_PATH)`, `skip` units of the last
match still to be passed over. -/
def diagnosticPaths (skip : Nat) : JsString → List JsString
  | [] => []
  | code :: rest =>
      match skip with
      | pending + 1 => diagnosticPaths pending rest
      | 0 =>
          match diagnosticAt (code :: rest) with
          | some (path, length) => path :: diagnosticPaths (length - 1) rest
          | none => diagnosticPaths 0 rest

/-- `path.posix.basename(text.replace(/\\/g, "/"))`. -/
def posixBasename (text : JsString) : JsString :=
  let isSlash : CodeUnit → Bool := fun code => code == unit '/' || code == unit '\\'
  ((text.reverse.dropWhile isSlash).takeWhile fun code => !isSlash code).reverse

/-- `classifyOracleValidity(command, output).invalid`. -/
def classifyOracleValidity (command output : JsString) : Bool :=
  if !hasTransformEnvelope output then
    false
  else
    match (oraclePathsFromCommand command).dedup with
    | [oracle] =>
        match ((diagnosticPaths 0 output).map posixBasename).dedup with
        | [base] => base == posixBasename oracle
        | _ => false
    | _ => false

example :
    classifyOracleValidity (js "vitest run 'src/a.test.ts'")
      (js "Transform failed with 1 error:\n/w/src/a.test.ts:3:4: ERROR: x") = true := by
  decide

/-- `isEligibleRed`. -/
def isEligibleRed (outcome : EvidenceOutcome) (payload : JsValue) : Bool :=
  if payload.property (js "oracleValidity") |>.asString |> (· == some (js "invalid")) then
    false
  else if outcome ≠ .contradicts then
    true
  else
    let command := (payload.property (js "command")).asString.getD []
    if command.isEmpty then
      true
    else
      let stdout := ((payload.property (js "stdout")).orElse (.string [])).display
      let stderr := ((payload.property (js "stderr")).orElse (.string [])).display
      !classifyOracleValidity command (stdout ++ js "\n" ++ stderr)

end SpecAsCode.Verifier
