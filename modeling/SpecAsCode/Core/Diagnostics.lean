import SpecAsCode.Js.JsString

/-!
# Diagnostics

What a validation reports.
-/

namespace SpecAsCode.Core

open SpecAsCode.Js

inductive Severity where
  | error
  | warning
  deriving DecidableEq, Repr

/-- A finding, with the texts it is related to. -/
structure Diagnostic where
  code : JsString
  severity : Severity
  message : JsString
  related : Option (List JsString)
  deriving DecidableEq

/-- `error(code, message, undefined, related)`. -/
def error (code message : JsString) (related : Option (List JsString)) : Diagnostic where
  code := code
  severity := .error
  message := message
  related := related

def hasErrors (diagnostics : List Diagnostic) : Bool :=
  diagnostics.any fun diagnostic => diagnostic.severity == .error

/-- `[...new Set(texts)].sort()`. -/
def sortUnique (texts : List JsString) : List JsString :=
  texts.dedup.insertionSort fun first second => first ≤ second

/-- `texts.join(separator)`. -/
def joinTexts (separator : JsString) (texts : List JsString) : JsString :=
  separator.intercalate texts

end SpecAsCode.Core
