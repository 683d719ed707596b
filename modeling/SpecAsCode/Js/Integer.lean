import SpecAsCode.Js.Number
import SpecAsCode.Js.Numeral

/-!
# Integers as JavaScript numbers

A natural number below `2 ^ 53` is a double that keeps its value.
-/

namespace SpecAsCode.Js

theorem natOfDigits_append (first second : List Digit) :
    natOfDigits (first ++ second) =
      natOfDigits first * 10 ^ second.length + natOfDigits second := by
  have folded : ∀ (digits : List Digit) (start : Nat),
      digits.foldl (fun value digit => 10 * value + digit.val) start =
        start * 10 ^ digits.length + natOfDigits digits := by
    intro digits
    induction digits with
    | nil => simp [natOfDigits]
    | cons digit digits inductionHypothesis =>
        intro start
        have tail : natOfDigits (digit :: digits) =
            (10 * 0 + digit.val) * 10 ^ digits.length + natOfDigits digits :=
          inductionHypothesis (10 * 0 + digit.val)
        rw [List.foldl_cons, inductionHypothesis, tail, List.length_cons, pow_succ]
        ring
  rw [natOfDigits, List.foldl_append, folded]
  rfl

theorem natOfDigits_zeros (count : Nat) : natOfDigits (List.replicate count 0) = 0 := by
  induction count with
  | zero => rfl
  | succ count inductionHypothesis =>
      rw [List.replicate_succ, ← List.singleton_append, natOfDigits_append, inductionHypothesis]
      simp [natOfDigits]

/-- The digits of a number that is padded with zeros. -/
theorem mapM_digitOf_padded (count number : Nat) :
    (List.replicate count (unit '0') ++ natText number).mapM digitOf =
      some (List.replicate count 0 ++ natDigits number) := by
  have mapped : ∀ digits : List Digit, (digits.map digitUnit).mapM digitOf = some digits := by
    intro digits
    induction digits with
    | nil => rfl
    | cons digit digits inductionHypothesis =>
        rw [List.map_cons, List.mapM_cons, digitOf_digitUnit, inductionHypothesis]
        rfl
  have zero : unit '0' = digitUnit 0 := by decide
  rw [zero, natText, ← List.map_replicate, ← List.map_append, mapped]

/-- Zeros in front of a number do not change it. -/
theorem natOfDigits_padded (count number : Nat) :
    natOfDigits (List.replicate count 0 ++ natDigits number) = number := by
  rw [natOfDigits_append, natOfDigits_zeros, natOfDigits_natDigits]
  omega

/-- Numbers behind one text and padded to one width are told apart. -/
theorem padded_injective (lead : JsString) (width : Nat) : Function.Injective fun number =>
    lead ++ List.replicate (width - (natText number).length) (unit '0') ++ natText number := by
  intro first second same
  simp only [List.append_assoc] at same
  have digits := congrArg (List.mapM digitOf) (List.append_cancel_left same)
  rw [mapM_digitOf_padded, mapM_digitOf_padded] at digits
  have values := congrArg natOfDigits (Option.some.inj digits)
  rwa [natOfDigits_padded, natOfDigits_padded] at values

private theorem natDigitsRev_last (fuel value : Nat) (enough : value < fuel)
    (positive : value ≠ 0) : (natDigitsRev fuel value).getLast? ≠ some 0 := by
  induction fuel generalizing value with
  | zero => omega
  | succ fuel inductionHypothesis =>
      rw [natDigitsRev]
      split
      next small =>
        have nonzero : Fin.ofNat 10 value ≠ 0 := by
          intro zero
          have valueZero := congrArg Fin.val zero
          simp only [Fin.val_ofNat, Fin.val_zero] at valueZero
          omega
        simpa using nonzero
      next large =>
        have later := inductionHypothesis (value / 10) (by omega) (by omega)
        rw [List.getLast?_cons]
        cases last : (natDigitsRev fuel (value / 10)).getLast? with
        | none =>
            have empty := List.getLast?_eq_none_iff.mp last
            have read := natOfDigits_natDigitsRev fuel (value / 10) (by omega)
            rw [empty] at read
            have zero : value / 10 = 0 := read.symm
            omega
        | some digit =>
            rw [last] at later
            simpa using later

theorem natDigits_head {value : Nat} (positive : value ≠ 0) :
    (natDigits value).head? ≠ some 0 := by
  rw [natDigits, List.head?_reverse]
  exact natDigitsRev_last (value + 1) value (by omega) positive

/-- A digit sequence that does not start with zero is a significand with zeros behind it. -/
theorem exists_significand (digits : List Digit) (nonempty : digits ≠ [])
    (head : digits.head? ≠ some 0) :
    ∃ (significand : Significand) (count : Nat),
      digits = significand.digits ++ List.replicate count 0 := by
  induction digits using List.reverseRecOn with
  | nil => exact absurd rfl nonempty
  | append_singleton initial digit inductionHypothesis =>
      by_cases zero : digit = 0
      · subst zero
        have initialNonempty : initial ≠ [] := by
          rintro rfl
          exact head rfl
        rw [List.head?_append_of_ne_nil _ initialNonempty] at head
        obtain ⟨significand, count, shape⟩ := inductionHypothesis initialNonempty head
        refine ⟨significand, count + 1, ?_⟩
        rw [shape, List.append_assoc, ← List.replicate_succ']
      · refine ⟨⟨initial ++ [digit], nonempty, ?_, by simpa using zero⟩, 0, by simp⟩
        intro headZero
        exact head (by rw [List.head?_eq_some_head nonempty, headZero])

private theorem pow_le_natOfDigits {digits : List Digit} (head : digits.head? ≠ some 0) :
    10 ^ (digits.length - 1) ≤ natOfDigits digits ∨ digits = [] := by
  cases digits with
  | nil => exact Or.inr rfl
  | cons digit rest =>
      have positive : 1 ≤ digit.val := by
        have nonzero : digit.val ≠ 0 := fun zero => head (congrArg some (Fin.ext zero))
        omega
      have single : natOfDigits [digit] = digit.val := by simp [natOfDigits]
      rw [← List.singleton_append, natOfDigits_append, single]
      left
      calc 10 ^ (([digit] ++ rest).length - 1) = 1 * 10 ^ rest.length := by simp
        _ ≤ digit.val * 10 ^ rest.length := Nat.mul_le_mul_right _ positive
        _ ≤ digit.val * 10 ^ rest.length + natOfDigits rest := Nat.le_add_right _ _

/-- A natural number below `2 ^ 53` keeps its value. -/
theorem Decimal.safeInteger_ofNat {value : Nat} (small : value < 2 ^ 53) :
    (Decimal.ofNat value).safeInteger = some value ∧
      (Decimal.ofNat value).isNegative = false := by
  by_cases zero : value = 0
  · subst zero
    exact ⟨rfl, rfl⟩
  · obtain ⟨significand, count, shape⟩ :=
      exists_significand (natDigits value) (natDigits_ne_nil value) (natDigits_head zero)
    have denoted := Decimal.ofDigits_significand false significand 0 count (natDigits value).length
    simp only [List.replicate_zero, List.nil_append, Nat.cast_zero, add_zero, ← shape] at denoted
    rw [Decimal.ofNat, denoted]
    refine ⟨?_, rfl⟩
    have length : (natDigits value).length = significand.digits.length + count := by
      rw [shape, List.length_append, List.length_replicate]
    have total : natOfDigits significand.digits * 10 ^ count = value := by
      have read := natOfDigits_natDigits value
      rwa [shape, natOfDigits_append, natOfDigits_zeros, List.length_replicate, add_zero] at read
    have leading := (pow_le_natOfDigits significand.head?_ne_zero).resolve_right significand.nonempty
    have positiveLength := List.length_pos_iff.mpr significand.nonempty
    have short : (natDigits value).length ≤ 16 := by
      by_contra long
      have large : 10 ^ 16 ≤ value := by
        calc 10 ^ 16 ≤ 10 ^ (significand.digits.length - 1 + count) :=
              Nat.pow_le_pow_right (by decide) (by omega)
          _ = 10 ^ (significand.digits.length - 1) * 10 ^ count := pow_add _ _ _
          _ ≤ natOfDigits significand.digits * 10 ^ count := Nat.mul_le_mul_right _ leading
          _ = value := total
      have bound : (2 : Nat) ^ 53 < 10 ^ 16 := by decide
      omega
    rw [Decimal.safeInteger, if_pos ⟨by omega, by omega⟩]
    have exponent : (((natDigits value).length : Int) - significand.digits.length).toNat = count := by
      omega
    rw [exponent, total, if_pos small]

theorem JsNumber.ofNat_eq {value : Nat} (small : value < 2 ^ 53) :
    ∃ double : Double, JsNumber.ofNat value = .finite double ∧
      double.name = Decimal.ofNat value := by
  have rounded : (Decimal.ofNat value).rounded = some (Decimal.ofNat value) := by
    have safe := (Decimal.safeInteger_ofNat small).1
    cases shape : Decimal.ofNat value with
    | zero => rfl
    | nonzero negative significand point =>
        rw [shape] at safe
        rw [Decimal.rounded, safe, Option.isSome_some, if_pos rfl]
  exact ⟨⟨Decimal.ofNat value, rounded⟩, Double.toNumber_name ⟨_, rounded⟩, rfl⟩

theorem JsNumber.isPositiveInteger_ofNat {value : Nat} (positive : 0 < value)
    (small : value < 2 ^ 53) : (JsNumber.ofNat value).isPositiveInteger = true := by
  obtain ⟨double, number, name⟩ := JsNumber.ofNat_eq small
  obtain ⟨safe, sign⟩ := Decimal.safeInteger_ofNat small
  rw [number, JsNumber.isPositiveInteger, name, safe, sign]
  simpa using positive

/-- The decimal with the other sign. -/
def Decimal.negated : Decimal → Decimal
  | .zero => .zero
  | .nonzero negative significand point => .nonzero (!negative) significand point

/-- An integer as a JavaScript number. -/
def JsNumber.ofInt : Int → JsNumber
  | .ofNat value => JsNumber.ofNat value
  | .negSucc value => (Decimal.ofNat (value + 1)).negated.toNumber

end SpecAsCode.Js
