import SpecAsCode.Js.Parse
import Mathlib.Data.List.Sort

/-!
# Numbers from values

`Number(value)`, and the order of numbers that a comparator `(a, b) => a - b` sorts by.
-/

namespace SpecAsCode.Js

/-! ## Conversion -/

/-- A decimal literal: digits with a point anywhere, and an exponent. -/
def readLiteral (negative : Bool) (text : JsString) : Option Decimal :=
  let whole := readDigits text
  let fraction :=
    if whole.2.head? = some (unit '.') then readDigits whole.2.tail else ([], whole.2)
  if whole.1 = [] ∧ fraction.1 = [] then
    none
  else
    (readExponent fraction.2).map fun exponent =>
      Decimal.ofDigits negative (whole.1 ++ fraction.1) (whole.1.length + exponent)

/-- A literal after its sign. -/
def readUnsigned (negative : Bool) (text : JsString) : Option JsNumber :=
  if text = js "Infinity" then
    some (.infinity negative)
  else
    (readLiteral negative text).map Decimal.toNumber

/-- The base that the letter after a zero announces. -/
def radixOf (letter : CodeUnit) : Option Nat :=
  if letter = unit 'x' ∨ letter = unit 'X' then some 16
  else if letter = unit 'o' ∨ letter = unit 'O' then some 8
  else if letter = unit 'b' ∨ letter = unit 'B' then some 2
  else none

/-- Digits of a base. -/
def readRadix (radix : Nat) (digits : JsString) : Option Nat :=
  if digits = [] then
    none
  else
    digits.foldlM (fun value code =>
      (hexValue code).bind fun digit =>
        if digit < radix then some (radix * value + digit) else none) 0

/-- A numeric literal without white space around it. -/
def readNumeric (text : JsString) : Option JsNumber :=
  match text with
  | [] => some (JsNumber.ofNat 0)
  | first :: rest =>
      match (if first = unit '0' then rest.head?.bind radixOf else none) with
      | some radix => (readRadix radix rest.tail).map JsNumber.ofNat
      | none =>
          if first = unit '-' then readUnsigned true rest
          else if first = unit '+' then readUnsigned false rest
          else readUnsigned false (first :: rest)

/-- `Number(value)`; `none` when the conversion throws. -/
def JsValue.toNumber : JsValue → Option JsNumber
  | .undefined => some .nan
  | .null => some (JsNumber.ofNat 0)
  | .bool value => some (JsNumber.ofNat (if value then 1 else 0))
  | .number value => some value
  | .string value => some ((readNumeric (trim value)).getD .nan)
  | .array items =>
      (JsValue.array items).toText.map fun text => (readNumeric (trim text)).getD .nan
  | .object members => if (JsValue.object members).converts then some .nan else none

example : (JsValue.string (js " 0x1f ")).toNumber = some (JsNumber.ofNat 31) := by decide +kernel

/-! ## Order -/

/-- The order of magnitudes: the digits start right after the point, and none of them is a
zero at an end. -/
def magnitudeLess (first : Significand) (point : Int) (second : Significand) (other : Int) : Bool :=
  point < other || (point == other && first.digits < second.digits)

/-- `first < second` for decimals. -/
def Decimal.less : Decimal → Decimal → Bool
  | .zero, .zero => false
  | .zero, .nonzero negative _ _ => !negative
  | .nonzero negative _ _, .zero => negative
  | .nonzero true _ _, .nonzero false _ _ => true
  | .nonzero false _ _, .nonzero true _ _ => false
  | .nonzero false first point, .nonzero false second other =>
      magnitudeLess first point second other
  | .nonzero true first point, .nonzero true second other =>
      magnitudeLess second other first point

/-- `first < second`. -/
def JsNumber.less : JsNumber → JsNumber → Bool
  | .finite first, .finite second => first.name.less second.name
  | .finite _, .infinity negative => !negative
  | .infinity negative, .finite _ => negative
  | .infinity first, .infinity second => first && !second
  | .nan, _ => false
  | _, .nan => false

theorem magnitudeLess_asymm {first second : Significand} {point other : Int}
    (less : magnitudeLess first point second other = true) :
    magnitudeLess second other first point = false := by
  simp only [magnitudeLess, Bool.or_eq_true, Bool.and_eq_true, decide_eq_true_eq, beq_iff_eq,
    Bool.or_eq_false_iff, Bool.and_eq_false_iff, decide_eq_false_iff_not, beq_eq_false_iff_ne]
    at less ⊢
  rcases less with below | ⟨rfl, digits⟩
  · exact ⟨by omega, Or.inl (by omega)⟩
  · exact ⟨lt_irrefl _, Or.inr (lt_asymm digits)⟩

theorem Decimal.less_asymm {first second : Decimal} (less : first.less second = true) :
    second.less first = false := by
  cases first with
  | zero =>
      cases second with
      | zero => rfl
      | nonzero negative significand point => simpa [Decimal.less] using less
  | nonzero negative significand point =>
      cases second with
      | zero => simpa [Decimal.less] using less
      | nonzero otherNegative other otherPoint =>
          cases negative <;> cases otherNegative
          · exact magnitudeLess_asymm less
          · cases less
          · rfl
          · exact magnitudeLess_asymm less

/-- A number is not below a smaller one. -/
theorem JsNumber.less_asymm {first second : JsNumber} (less : first.less second = true) :
    second.less first = false := by
  cases first with
  | finite value =>
      cases second with
      | finite other => exact Decimal.less_asymm less
      | nan => cases less
      | infinity negative => simpa [JsNumber.less] using less
  | nan => cases less
  | infinity negative =>
      cases second with
      | finite other => simpa [JsNumber.less] using less
      | nan => cases less
      | infinity other => cases negative <;> cases other <;> simp_all [JsNumber.less]

theorem JsNumber.less_irrefl (value : JsNumber) : value.less value = false := by
  cases less : value.less value with
  | false => rfl
  | true => exact less.symm.trans (JsNumber.less_asymm less)

/-- `entries.sort((a, b) => a[0] - b[0])`. -/
def sortByNumber {Entry : Type} (number : Entry → JsNumber) (entries : List Entry) : List Entry :=
  entries.insertionSort fun first second => (number second).less (number first) = false

/-- Entries in ascending order keep it. -/
theorem sortByNumber_ascending {Entry : Type} {number : Entry → JsNumber} {entries : List Entry}
    (ascending : entries.Pairwise fun first second => (number first).less (number second) = true) :
    sortByNumber number entries = entries :=
  List.Pairwise.insertionSort_eq (ascending.imp fun less => JsNumber.less_asymm less)

end SpecAsCode.Js
