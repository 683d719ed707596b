import SpecAsCode.Js.JsString

/-!
# Regular expressions

Regular expressions with anchors, as far as `RegExp.prototype.test` is concerned: whether some
part of a text matches.
-/

namespace SpecAsCode.Js

inductive Regex where
  | one (allowed : CodeUnit → Bool)
  | epsilon
  | seq (first second : Regex)
  | alt (first second : Regex)
  | star (inner : Regex)
  | start
  | stop

namespace Regex

/-- The texts that are left after up to a number of rounds, each of which takes something. -/
def rounds (step : JsString → List JsString) : Nat → JsString → List JsString
  | 0, text => [text]
  | count + 1, text =>
      text :: ((step text).filter fun rest => rest.length < text.length).flatMap (rounds step count)

/-- What can be left of a text after a match at its beginning.  The text is the end of one with
`size` code units. -/
def rests (size : Nat) : Regex → JsString → List JsString
  | one _, [] => []
  | one allowed, code :: rest => if allowed code then [rest] else []
  | epsilon, text => [text]
  | seq first second, text => (rests size first text).flatMap (rests size second)
  | alt first second, text => rests size first text ++ rests size second text
  | star inner, text => rounds (rests size inner) text.length text
  | start, text => if text.length = size then [text] else []
  | stop, text => if text = [] then [text] else []

/-- `regex.test(text)`. -/
def test (regex : Regex) (text : JsString) : Bool :=
  text.tails.any fun tail => rests text.length regex tail != []

/-! ## Spellings -/

def literal (text : JsString) : Regex :=
  text.foldr (fun code rest => seq (one fun other => other == code) rest) epsilon

/-- One after another. -/
def all (parts : List Regex) : Regex :=
  parts.foldr seq epsilon

/-- One of the parts. -/
def any (parts : List Regex) : Regex :=
  parts.foldr alt (one fun _ => false)

/-- One of the words. -/
def words (texts : List String) : Regex :=
  any (texts.map fun text => literal (js text))

/-- `\s+`. -/
def spaces : Regex :=
  seq (one isSpace) (star (one isSpace))

/-- `(^|\s)`. -/
def before : Regex :=
  alt start (one isSpace)

/-- `(\s|$)`. -/
def after : Regex :=
  alt (one isSpace) stop

def optional (part : Regex) : Regex :=
  alt part epsilon

/-- `[a-z]`. -/
def letter : Regex :=
  one fun code => unit 'a' ≤ code && code ≤ unit 'z'

/-- A word, and another one behind white space. -/
def pair (first second : String) : Regex :=
  all [literal (js first), spaces, literal (js second)]

end Regex

end SpecAsCode.Js
