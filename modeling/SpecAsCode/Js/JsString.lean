import Mathlib.Data.List.Lex
import Mathlib.Data.List.Infix
import Mathlib.Data.List.Sort
import Mathlib.Order.Fin.Basic
import Mathlib.Tactic.Ring

/-!
# JavaScript strings

A JavaScript string is a finite sequence of 16-bit code units.  Comparison with
`<` and `>=`, and the default order of `Array.prototype.sort`, is the
lexicographic order on code units, which is the order Mathlib puts on lists.
-/

namespace SpecAsCode.Js

/-- A UTF-16 code unit. -/
abbrev CodeUnit := Fin 65536

instance codeUnits_neZero : NeZero (65536 : Nat) := ⟨by decide⟩

/-- A JavaScript string: its code units, first to last. -/
abbrev JsString := List CodeUnit

instance jsString_lawfulBEq : LawfulBEq JsString :=
  inferInstance

/-- The string of a source literal, for texts inside the basic plane. -/
def js (text : String) : JsString :=
  text.toList.map fun letter => Fin.ofNat 65536 letter.toNat

/-- The code unit of an ASCII character. -/
def unit (letter : Char) : CodeUnit :=
  Fin.ofNat 65536 letter.toNat

/-- `text.includes(part)`. -/
def includes (text part : JsString) : Bool :=
  text.tails.any fun tail => part.isPrefixOf tail

/-- `text.startsWith(part)`. -/
def startsWith (text part : JsString) : Bool :=
  part.isPrefixOf text

/-- White space and line terminators, as `String.prototype.trim` and the `\s`
class of regular expressions know them. -/
def isSpace (code : CodeUnit) : Bool :=
  let point := code.val
  (9 ≤ point && point ≤ 13) || point == 32 || point == 160 || point == 0x1680 ||
    (0x2000 ≤ point && point ≤ 0x200A) || point == 0x2028 || point == 0x2029 ||
    point == 0x202F || point == 0x205F || point == 0x3000 || point == 0xFEFF

/-- `text.trim()`. -/
def trim (text : JsString) : JsString :=
  ((text.dropWhile isSpace).reverse.dropWhile isSpace).reverse

end SpecAsCode.Js
