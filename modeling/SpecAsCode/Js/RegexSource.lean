import SpecAsCode.Js.RegexGuards

/-!
# Sources of regular expressions

How `new RegExp(source)` reads a source without flags, as far as the syntax is used here:
characters, escaped syntax characters, the dot, anchors, classes of single characters, groups
without a capture, alternatives and greedy quantifiers.
-/

namespace SpecAsCode.Js.Regex

/-- A `SyntaxCharacter`. -/
def isSyntaxCharacter (code : CodeUnit) : Bool :=
  (js "^$\\.*+?()[]\x7b\x7d|").contains code

/-- `.`. -/
def dot : Regex :=
  one fun code =>
    !(code.val == 10 || code.val == 13 || code.val == 0x2028 || code.val == 0x2029)

/-- `[…]` or `[^…]`. -/
def members (negated : Bool) (codes : List CodeUnit) : Regex :=
  one fun code => codes.contains code != negated

/-- A term, and whether a quantifier may follow it. -/
structure Term where
  regex : Regex
  quantifiable : Bool

/-- A group that is being read: its closed alternatives and the terms of the open one, the
last first. -/
structure Group where
  closed : List Regex
  terms : List Term

namespace Group

def empty : Group :=
  ⟨[], []⟩

def push (group : Group) (term : Term) : Group :=
  { group with terms := term :: group.terms }

/-- The open alternative. -/
def openTerms (group : Group) : Regex :=
  all (group.terms.reverse.map Term.regex)

def regex (group : Group) : Regex :=
  group.closed.foldl (fun later earlier => alt earlier later) group.openTerms

def bar (group : Group) : Group :=
  ⟨group.openTerms :: group.closed, []⟩

/-- A quantifier is put on the last term. -/
def quantify (quantifier : Regex → Regex) (group : Group) : Option Group :=
  match group.terms with
  | ⟨regex, true⟩ :: earlier => some { group with terms := ⟨quantifier regex, false⟩ :: earlier }
  | _ => none

end Group

/-- Where in the syntax the next character stands. -/
inductive Mode where
  | outside
  /-- Behind a backslash. -/
  | escaped
  /-- Behind the bracket of a class. -/
  | opened
  /-- Among the members of a class. -/
  | inside (negated : Bool) (codes : List CodeUnit)
  /-- Behind the parenthesis of a group. -/
  | grouped
  /-- Behind its question mark. -/
  | marked

/-- The group that is being read, and those around it. -/
structure Reader where
  outer : List Group
  group : Group
  mode : Mode

namespace Reader

def push (reader : Reader) (regex : Regex) (quantifiable : Bool) : Reader :=
  ⟨reader.outer, reader.group.push ⟨regex, quantifiable⟩, .outside⟩

def quantify (reader : Reader) (quantifier : Regex → Regex) : Option Reader :=
  (reader.group.quantify quantifier).map fun group => { reader with group := group }

/-- A character outside classes. -/
def outside (reader : Reader) (code : CodeUnit) : Option Reader :=
  if isSyntaxCharacter code = false then some (reader.push (one fun other => other == code) true)
  else if code = unit '^' then some (reader.push start false)
  else if code = unit '$' then some (reader.push stop false)
  else if code = unit '.' then some (reader.push dot true)
  else if code = unit '*' then reader.quantify star
  else if code = unit '+' then reader.quantify fun regex => seq regex (star regex)
  else if code = unit '?' then reader.quantify optional
  else if code = unit '|' then some { reader with group := reader.group.bar }
  else if code = unit '\\' then some { reader with mode := .escaped }
  else if code = unit '[' then some { reader with mode := .opened }
  else if code = unit '(' then some { reader with mode := .grouped }
  else if code = unit ')' then
    match reader.outer with
    | [] => none
    | parent :: outer => some (Reader.push ⟨outer, parent, .outside⟩ reader.group.regex true)
  else none

/-- A character; none for a syntax that is not covered. -/
def step (reader : Reader) (code : CodeUnit) : Option Reader :=
  match reader.mode with
  | .outside => reader.outside code
  | .escaped =>
      if isSyntaxCharacter code then some (reader.push (one fun other => other == code) true)
      else none
  | .opened =>
      if code = unit '^' then some { reader with mode := .inside true [] }
      else if code = unit ']' ∨ code = unit '\\' ∨ code = unit '-' then none
      else some { reader with mode := .inside false [code] }
  | .inside negated codes =>
      if code = unit ']' then some (reader.push (members negated codes) true)
      else if code = unit '\\' ∨ code = unit '-' then none
      else some { reader with mode := .inside negated (code :: codes) }
  | .grouped => if code = unit '?' then some { reader with mode := .marked } else none
  | .marked =>
      if code = unit ':' then some ⟨reader.group :: reader.outer, .empty, .outside⟩ else none

def read (reader : Reader) : JsString → Option Reader
  | [] => some reader
  | code :: rest => (reader.step code).bind fun next => next.read rest

def finish (reader : Reader) : Option Regex :=
  match reader.outer, reader.mode with
  | [], .outside => some reader.group.regex
  | _, _ => none

end Reader

/-- `new RegExp(source)`. -/
def ofSource (source : JsString) : Option Regex :=
  (Reader.read ⟨[], .empty, .outside⟩ source).bind Reader.finish

example : (ofSource (js "^a(?:b|c)*[^/]$")).map (·.test (js "abcbx")) = some true := by
  decide +kernel

example : (ofSource (js "a**")).isNone = true := by decide +kernel

theorem Reader.read_append (reader : Reader) (first second : JsString) :
    reader.read (first ++ second) = (reader.read first).bind fun next => next.read second := by
  induction first generalizing reader with
  | nil => rfl
  | cons code first inductionHypothesis =>
      rw [List.cons_append, Reader.read, Reader.read, Option.bind_assoc]
      congr 1
      exact funext fun next => inductionHypothesis next

end SpecAsCode.Js.Regex
