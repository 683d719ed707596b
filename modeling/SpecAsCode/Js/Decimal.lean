import SpecAsCode.Js.JsString

/-!
# Decimals

Decimal numbers with finitely many digits, and the way `Number::toString` lays out
their digits.
-/

namespace SpecAsCode.Js

/-- A decimal digit. -/
abbrev Digit := Fin 10

instance digits_neZero : NeZero (10 : Nat) := ⟨by decide⟩

/-- The significant digits of a nonzero decimal: neither the first nor the last
one is zero. -/
structure Significand where
  digits : List Digit
  nonempty : digits ≠ []
  head_ne_zero : digits.head nonempty ≠ 0
  last_ne_zero : digits.getLast nonempty ≠ 0
  deriving DecidableEq

/-- A decimal number.  `nonzero negative s point` is the number with the digits of
`s` after the decimal point, times ten to the power `point`. -/
inductive Decimal where
  | zero
  | nonzero (negative : Bool) (significand : Significand) (point : Int)
  deriving DecidableEq

/-- The code unit of a digit. -/
def digitUnit (digit : Digit) : CodeUnit :=
  ⟨48 + digit.val, by omega⟩

/-- The digit a code unit stands for. -/
def digitOf (code : CodeUnit) : Option Digit :=
  if bounds : 48 ≤ code.val ∧ code.val < 58 then
    some ⟨code.val - 48, by omega⟩
  else
    none

@[simp]
theorem digitOf_digitUnit (digit : Digit) : digitOf (digitUnit digit) = some digit := by
  have bounds : 48 ≤ (digitUnit digit).val ∧ (digitUnit digit).val < 58 := by
    simp only [digitUnit]
    omega
  rw [digitOf, dif_pos bounds]
  simp [digitUnit]

/-- The digits of a natural number, least significant first. -/
def natDigitsRev : Nat → Nat → List Digit
  | 0, _ => []
  | fuel + 1, value =>
      if value < 10 then
        [Fin.ofNat 10 value]
      else
        Fin.ofNat 10 (value % 10) :: natDigitsRev fuel (value / 10)

/-- The decimal digits of a natural number, most significant first. -/
def natDigits (value : Nat) : List Digit :=
  (natDigitsRev (value + 1) value).reverse

/-- The value of a list of decimal digits. -/
def natOfDigits (digits : List Digit) : Nat :=
  digits.foldl (fun value digit => 10 * value + digit.val) 0

/-- A natural number in decimal notation. -/
def natText (value : Nat) : JsString :=
  (natDigits value).map digitUnit

/-- The sign and digits of an exponent. -/
def exponentText (exponent : Int) : JsString :=
  match exponent with
  | .ofNat magnitude => unit '+' :: natText magnitude
  | .negSucc magnitude => unit '-' :: natText (magnitude + 1)

/-- The digits of a positive number with the decimal point or exponent where
`Number::toString` puts them. -/
def magnitudeText (digits : List Digit) (point : Int) : JsString :=
  let text := digits.map digitUnit
  let count : Int := digits.length
  if count ≤ point ∧ point ≤ 21 then
    text ++ List.replicate (point - count).toNat (unit '0')
  else if 0 < point ∧ point ≤ 21 then
    text.take point.toNat ++ unit '.' :: text.drop point.toNat
  else if -6 < point ∧ point ≤ 0 then
    unit '0' :: unit '.' :: (List.replicate (-point).toNat (unit '0') ++ text)
  else if digits.length = 1 then
    text ++ unit 'e' :: exponentText (point - 1)
  else
    text.take 1 ++ unit '.' :: (text.drop 1 ++ unit 'e' :: exponentText (point - 1))

/-- `Number::toString` on finite numbers. -/
def Decimal.text : Decimal → JsString
  | .zero => js "0"
  | .nonzero negative significand point =>
      (if negative then js "-" else []) ++ magnitudeText significand.digits point

/-- A digit sequence without its trailing zeros. -/
def stripTrailing (digits : List Digit) : List Digit :=
  (digits.reverse.dropWhile (· = 0)).reverse

/-- The decimal with the given digits and the given position of its point. -/
def Decimal.ofDigits (negative : Bool) (digits : List Digit) (point : Int) : Decimal :=
  let significant := digits.dropWhile (· = 0)
  let stripped := stripTrailing significant
  if nonempty : stripped ≠ [] ∧ (∀ h : stripped ≠ [], stripped.head h ≠ 0) ∧
      (∀ h : stripped ≠ [], stripped.getLast h ≠ 0) then
    .nonzero negative ⟨stripped, nonempty.1, nonempty.2.1 nonempty.1, nonempty.2.2 nonempty.1⟩
      (point - (digits.length - significant.length : Nat))
  else
    .zero

/-- A natural number. -/
def Decimal.ofNat (value : Nat) : Decimal :=
  Decimal.ofDigits false (natDigits value) (natDigits value).length

end SpecAsCode.Js
