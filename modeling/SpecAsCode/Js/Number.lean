import SpecAsCode.Js.Decimal

/-!
# JavaScript numbers

A finite double is named by the shortest decimal that is nearer to it than to any
other double.  This is the decimal that `Number::toString` prints, so a double is
kept here as a decimal that is its own shortest name.  The two zeros are one value,
as they are for `===` and for `JSON.stringify`.
-/

namespace SpecAsCode.Js

/-- The integer nearest to a fraction, the even one of two. -/
def roundHalfEven (numerator denominator : Nat) : Nat :=
  let quotient := numerator / denominator
  let remainder := numerator % denominator
  if 2 * remainder < denominator ∨ (2 * remainder = denominator ∧ quotient % 2 = 0) then
    quotient
  else
    quotient + 1

/-- A fraction times a power of a base. -/
def scale (fraction : Nat × Nat) (base : Nat) (power : Int) : Nat × Nat :=
  match power with
  | .ofNat power => (fraction.1 * base ^ power, fraction.2)
  | .negSucc power => (fraction.1, fraction.2 * base ^ (power + 1))

/-- The exponent of two of the last place a double spends on a positive fraction. -/
def binaryExponent (fraction : Nat × Nat) : Int :=
  let estimate : Int := (Nat.log2 fraction.1 : Int) - Nat.log2 fraction.2
  let scaled := scale fraction 2 (-estimate)
  let exponent := if scaled.2 ≤ scaled.1 then estimate else estimate - 1
  max (-1074) (exponent - 52)

/-- A rounded magnitude: an integer below `2 ^ 53` times a power of two, or beyond
the largest double. -/
inductive Magnitude where
  | within (mantissa : Nat) (exponent : Int)
  | overflow
  deriving DecidableEq

/-- The double nearest to a positive fraction. -/
def nearestMagnitude (fraction : Nat × Nat) : Magnitude :=
  let exponent := binaryExponent fraction
  let scaled := scale fraction 2 (-exponent)
  let mantissa := roundHalfEven scaled.1 scaled.2
  let carried := if mantissa = 2 ^ 53 then (2 ^ 52, exponent + 1) else (mantissa, exponent)
  if 971 < carried.2 then .overflow else .within carried.1 carried.2

/-- The magnitude of the double nearest to a decimal. -/
def Decimal.magnitude : Decimal → Magnitude
  | .zero => .within 0 0
  | .nonzero _ significand point =>
      if 310 < point then
        .overflow
      else if point < -330 then
        .within 0 (-1074)
      else
        nearestMagnitude
          (scale (natOfDigits significand.digits, 1) 10 (point - significand.digits.length))

/-- A decimal below zero. -/
def Decimal.isNegative : Decimal → Bool
  | .zero => false
  | .nonzero negative _ _ => negative

/-- The decimals of `count` digits next to a fraction, the nearer one first.  `point`
is the position of the decimal point of the fraction. -/
def namesOfLength (negative : Bool) (fraction : Nat × Nat) (point : Int) (count : Nat) :
    List Decimal :=
  let scaled := scale fraction 10 (count - point)
  let nearer := roundHalfEven scaled.1 scaled.2
  let below := scaled.1 / scaled.2
  let other := if nearer = below then below + 1 else below
  [nearer, other].map fun value =>
    Decimal.ofDigits negative (natDigits value) ((natDigits value).length + point - count)

/-- The decimals that can be the shortest name of a double, best first. -/
def shortestNames (negative : Bool) (mantissa : Nat) (exponent : Int) : List Decimal :=
  let fraction := scale (mantissa, 1) 2 exponent
  let point : Int := (natDigits (fraction.1 * 10 ^ 400 / fraction.2)).length - 400
  (List.range 17).flatMap fun count => namesOfLength negative fraction point (count + 1)

/-- The magnitude of a decimal that is an integer below `2 ^ 53`. -/
def Decimal.safeInteger : Decimal → Option Nat
  | .zero => some 0
  | .nonzero _ significand point =>
      if (significand.digits.length : Int) ≤ point ∧ point ≤ 16 then
        let value :=
          natOfDigits significand.digits * 10 ^ (point - significand.digits.length).toNat
        if value < 2 ^ 53 then some value else none
      else
        none

/-- The shortest name of the double nearest to a decimal, `none` beyond the largest
double.  An integer below `2 ^ 53` is a double and its own shortest name. -/
def Decimal.rounded (decimal : Decimal) : Option Decimal :=
  match decimal with
  | .zero => some .zero
  | .nonzero negative significand point =>
      if (Decimal.nonzero negative significand point).safeInteger.isSome then
        some (.nonzero negative significand point)
      else
        match (Decimal.nonzero negative significand point).magnitude with
        | .overflow => none
        | .within mantissa exponent =>
            if mantissa = 0 then
              some .zero
            else
              some (((shortestNames negative mantissa exponent).find? fun name =>
                name.isNegative == negative && name.magnitude == .within mantissa exponent).getD
                  (.nonzero negative significand point))

example : (Decimal.ofDigits false [9, 0, 0, 7, 1, 9, 9, 2, 5, 4, 7, 4, 0, 9, 9, 3] 16).rounded =
    some (Decimal.ofDigits false [9, 0, 0, 7, 1, 9, 9, 2, 5, 4, 7, 4, 0, 9, 9, 2] 16) := by
  decide +kernel

/-- A name is its own shortest name. -/
theorem Decimal.rounded_rounded {decimal name : Decimal} (named : decimal.rounded = some name) :
    name.rounded = some name := by
  cases decimal with
  | zero =>
      rw [Decimal.rounded, Option.some.injEq] at named
      rw [← named, Decimal.rounded]
  | nonzero negative significand point =>
      rw [Decimal.rounded] at named
      split at named
      next safe =>
        rw [Option.some.injEq] at named
        rw [← named, Decimal.rounded, if_pos safe]
      next beyond =>
        cases size : (Decimal.nonzero negative significand point).magnitude with
        | overflow => simp [size] at named
        | within mantissa exponent =>
            simp only [size] at named
            by_cases vanishes : mantissa = 0
            · rw [if_pos vanishes, Option.some.injEq] at named
              rw [← named, Decimal.rounded]
            · rw [if_neg vanishes, Option.some.injEq] at named
              cases search : (shortestNames negative mantissa exponent).find? fun name =>
                  name.isNegative == negative && name.magnitude == .within mantissa exponent with
              | none =>
                  rw [search, Option.getD_none] at named
                  rw [← named, Decimal.rounded, if_neg beyond]
                  simp [size, vanishes, search]
              | some found =>
                  have same := List.find?_some search
                  simp only [Bool.and_eq_true, beq_iff_eq] at same
                  rw [search, Option.getD_some] at named
                  subst named
                  cases found with
                  | zero =>
                      have zero : Magnitude.within 0 0 = .within mantissa exponent := same.2
                      cases zero
                      exact absurd rfl vanishes
                  | nonzero sign digits position =>
                      have signEqual : sign = negative := same.1
                      subst signEqual
                      rw [Decimal.rounded]
                      split
                      next => rfl
                      next => simp [same.2, vanishes, search]

/-- A finite double, by its shortest name. -/
structure Double where
  name : Decimal
  isShortest : name.rounded = some name
  deriving DecidableEq

/-- A JavaScript number. -/
inductive JsNumber where
  | finite (value : Double)
  | nan
  | infinity (negative : Bool)
  deriving DecidableEq

/-- The number nearest to a decimal. -/
def Decimal.toNumber (decimal : Decimal) : JsNumber :=
  match named : decimal.rounded with
  | none => .infinity decimal.isNegative
  | some name => .finite ⟨name, Decimal.rounded_rounded named⟩

/-- The double named by a decimal is read back from its name. -/
@[simp]
theorem Double.toNumber_name (value : Double) : value.name.toNumber = .finite value := by
  obtain ⟨name, isShortest⟩ := value
  simp only [Decimal.toNumber]
  split
  next none => simp [isShortest] at none
  next other named =>
    rw [isShortest, Option.some.injEq] at named
    subst named
    rfl

/-- A natural number as a JavaScript number. -/
def JsNumber.ofNat (value : Nat) : JsNumber :=
  (Decimal.ofNat value).toNumber

/-- `Number.isSafeInteger` for a positive number. -/
def JsNumber.isPositiveInteger : JsNumber → Bool
  | .finite value =>
      !value.name.isNegative && (value.name.safeInteger.any fun magnitude => 0 < magnitude)
  | _ => false

/-- `Number.isFinite`. -/
def JsNumber.isFinite : JsNumber → Bool
  | .finite _ => true
  | .nan => false
  | .infinity _ => false

/-- `Number::toString`. -/
def JsNumber.text : JsNumber → JsString
  | .finite value => value.name.text
  | .nan => js "NaN"
  | .infinity negative => (if negative then js "-" else []) ++ js "Infinity"

end SpecAsCode.Js
