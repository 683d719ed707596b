import SpecAsCode.Js.Decimal

/-!
# Reading JSON numerals

`readNumeral` is the number grammar of JSON texts.  Reading what
`Number::toString` prints gives the number back.
-/

namespace SpecAsCode.Js

/-- The longest run of digits at the start of a text, and the rest. -/
def readDigits : JsString → List Digit × JsString
  | [] => ([], [])
  | code :: rest =>
      match digitOf code with
      | none => ([], code :: rest)
      | some digit => (digit :: (readDigits rest).1, (readDigits rest).2)

/-- The digits after a decimal point, when there is one. -/
def readFraction (text : JsString) : Option (List Digit × JsString) :=
  match text with
  | [] => some ([], [])
  | code :: rest =>
      if code = unit '.' then
        if (readDigits rest).1 = [] then none else some (readDigits rest)
      else
        some ([], code :: rest)

/-- The digits of an exponent, which end the numeral. -/
def readExponentDigits (text : JsString) : Option Nat :=
  if (readDigits text).1 ≠ [] ∧ (readDigits text).2 = [] then
    some (natOfDigits (readDigits text).1)
  else
    none

/-- The exponent that ends a numeral, zero when there is none. -/
def readExponent (text : JsString) : Option Int :=
  match text with
  | [] => some 0
  | mark :: rest =>
      if mark = unit 'e' ∨ mark = unit 'E' then
        match rest with
        | [] => none
        | sign :: digits =>
            if sign = unit '+' then
              (readExponentDigits digits).map fun value => (value : Int)
            else if sign = unit '-' then
              (readExponentDigits digits).map fun value => -(value : Int)
            else
              (readExponentDigits (sign :: digits)).map fun value => (value : Int)
      else
        none

/-- A numeral without its sign. -/
def readMagnitude (negative : Bool) (text : JsString) : Option Decimal :=
  let whole := readDigits text
  if whole.1 = [] ∨ (whole.1.head? = some 0 ∧ 1 < whole.1.length) then
    none
  else
    match readFraction whole.2 with
    | none => none
    | some fraction =>
        (readExponent fraction.2).map fun exponent =>
          Decimal.ofDigits negative (whole.1 ++ fraction.1) (whole.1.length + exponent)

/-- The number a JSON numeral denotes. -/
def readNumeral (text : JsString) : Option Decimal :=
  match text with
  | [] => none
  | code :: rest =>
      if code = unit '-' then readMagnitude true rest else readMagnitude false (code :: rest)

/-- The code units that occur in numerals. -/
def isNumeralUnit (code : CodeUnit) : Bool :=
  (digitOf code).isSome || code == unit '-' || code == unit '+' || code == unit '.' ||
    code == unit 'e' || code == unit 'E'

/-! ## Natural numbers -/

private theorem natOfDigits_snoc (digits : List Digit) (digit : Digit) :
    natOfDigits (digits ++ [digit]) = 10 * natOfDigits digits + digit.val := by
  simp [natOfDigits, List.foldl_append]

theorem natOfDigits_natDigitsRev (fuel value : Nat) (enough : value < fuel) :
    natOfDigits (natDigitsRev fuel value).reverse = value := by
  induction fuel generalizing value with
  | zero => omega
  | succ fuel inductionHypothesis =>
      rw [natDigitsRev]
      by_cases small : value < 10
      · rw [if_pos small]
        simp [natOfDigits, Nat.mod_eq_of_lt small]
      · rw [if_neg small, List.reverse_cons, natOfDigits_snoc,
          inductionHypothesis (value / 10) (by omega)]
        simp only [Fin.val_ofNat]
        omega

@[simp]
theorem natOfDigits_natDigits (value : Nat) : natOfDigits (natDigits value) = value :=
  natOfDigits_natDigitsRev (value + 1) value (by omega)

theorem natDigits_ne_nil (value : Nat) : natDigits value ≠ [] := by
  simp only [natDigits, natDigitsRev, ne_eq, List.reverse_eq_nil_iff]
  split <;> simp

/-! ## Digit runs -/

theorem readDigits_map (digits : List Digit) (rest : JsString)
    (stops : ∀ code ∈ rest.head?, digitOf code = none) :
    readDigits (digits.map digitUnit ++ rest) = (digits, rest) := by
  induction digits with
  | nil =>
      cases rest with
      | nil => rfl
      | cons code rest =>
          have stop : digitOf code = none := stops code rfl
          simp [readDigits, stop]
  | cons digit digits inductionHypothesis =>
      simp [readDigits, inductionHypothesis]

theorem readDigits_all (digits : List Digit) :
    readDigits (digits.map digitUnit) = (digits, []) := by
  simpa using readDigits_map digits [] (by simp)

private theorem readExponentDigits_natText (value : Nat) :
    readExponentDigits (natText value) = some value := by
  simp [readExponentDigits, natText, readDigits_all, natDigits_ne_nil]

theorem readExponent_exponentText (exponent : Int) :
    readExponent (unit 'e' :: exponentText exponent) = some exponent := by
  have plus_ne_minus : unit '-' ≠ unit '+' := by decide
  cases exponent with
  | ofNat magnitude => simp [readExponent, exponentText, readExponentDigits_natText]
  | negSucc magnitude =>
      simp [readExponent, exponentText, readExponentDigits_natText, plus_ne_minus]
      omega

/-! ## Reading back -/

theorem stripTrailing_append_zeros (digits : List Digit) (count : Nat)
    (last : ∀ nonempty : digits ≠ [], digits.getLast nonempty ≠ 0) :
    stripTrailing (digits ++ List.replicate count 0) = digits := by
  have dropped : (digits.reverse.dropWhile (· = 0)) = digits.reverse := by
    cases shape : digits.reverse with
    | nil => rfl
    | cons digit rest =>
        have nonempty : digits ≠ [] := by
          rintro rfl
          cases shape
        have nonzero := last nonempty
        have head : digits.getLast nonempty = digit := by
          have := List.head_reverse (l := digits) (by simpa using nonempty)
          rw [← this]
          simp [shape]
        rw [head] at nonzero
        simp [List.dropWhile, nonzero]
  have zeros : ∀ count : Nat, ∀ rest : List Digit,
      (List.replicate count (0 : Digit) ++ rest).dropWhile (· = 0) = rest.dropWhile (· = 0) := by
    intro count rest
    induction count with
    | zero => rfl
    | succ count inductionHypothesis => simp [List.replicate_succ]
  simp [stripTrailing, zeros, dropped]

/-- The digits of a significand, with zeros around them, denote the significand. -/
theorem Decimal.ofDigits_significand (negative : Bool) (significand : Significand)
    (leading trailing : Nat) (point : Int) :
    Decimal.ofDigits negative
        (List.replicate leading 0 ++ significand.digits ++ List.replicate trailing 0)
        (point + leading) =
      .nonzero negative significand point := by
  obtain ⟨digits, nonempty, head, last⟩ := significand
  have leadingDropped :
      (List.replicate leading (0 : Digit) ++ digits ++ List.replicate trailing 0).dropWhile
          (· = 0) = digits ++ List.replicate trailing 0 := by
    induction leading with
    | zero =>
        cases digits with
        | nil => exact absurd rfl nonempty
        | cons digit rest =>
            have nonzero : digit ≠ 0 := head
            simp [nonzero]
    | succ leading inductionHypothesis => simpa [List.replicate_succ] using inductionHypothesis
  have stripped : stripTrailing (digits ++ List.replicate trailing 0) = digits :=
    stripTrailing_append_zeros digits trailing fun _ => last
  simp only [Decimal.ofDigits, leadingDropped, stripped]
  rw [dif_pos ⟨nonempty, fun _ => head, fun _ => last⟩]
  congr 1
  simp only [List.length_append, List.length_replicate]
  omega

private theorem readMagnitude_whole (negative : Bool) (digits : List Digit)
    (nonempty : digits ≠ []) (head : digits.head? ≠ some 0) :
    readMagnitude negative (digits.map digitUnit) =
      some (Decimal.ofDigits negative digits digits.length) := by
  simp [readMagnitude, readDigits_all, nonempty, head, readFraction, readExponent]

private theorem readFraction_point (digits : List Digit) (rest : JsString)
    (nonempty : digits ≠ []) (stops : ∀ code ∈ rest.head?, digitOf code = none) :
    readFraction (unit '.' :: (digits.map digitUnit ++ rest)) = some (digits, rest) := by
  simp [readFraction, readDigits_map digits rest stops, nonempty]

private theorem readMagnitude_point (negative : Bool) (whole fraction : List Digit)
    (nonemptyWhole : whole ≠ []) (single : whole.head? = some 0 → whole.length = 1)
    (nonempty : fraction ≠ []) :
    readMagnitude negative (whole.map digitUnit ++ unit '.' :: fraction.map digitUnit) =
      some (Decimal.ofDigits negative (whole ++ fraction) whole.length) := by
  have stop : digitOf (unit '.') = none := by decide
  have wholeRead := readDigits_map whole (unit '.' :: fraction.map digitUnit) (by simp [stop])
  have fractionRead := readFraction_point fraction [] nonempty (by simp)
  rw [List.append_nil] at fractionRead
  have shape : ¬ (whole = [] ∨ (whole.head? = some 0 ∧ 1 < whole.length)) := by
    rintro (empty | ⟨zero, long⟩)
    · exact nonemptyWhole empty
    · have := single zero
      omega
  simp only [readMagnitude, wholeRead, if_neg shape, fractionRead]
  simp [readExponent]

private theorem readMagnitude_exponent (negative : Bool) (digit : Digit) (nonzero : digit ≠ 0)
    (exponent : Int) :
    readMagnitude negative (digitUnit digit :: unit 'e' :: exponentText exponent) =
      some (Decimal.ofDigits negative [digit] (1 + exponent)) := by
  have stop : digitOf (unit 'e') = none := by decide
  have wholeRead := readDigits_map [digit] (unit 'e' :: exponentText exponent) (by simp [stop])
  have notPoint : unit 'e' ≠ unit '.' := by decide
  simp only [List.map_cons, List.map_nil, List.cons_append, List.nil_append] at wholeRead
  simp [readMagnitude, wholeRead, nonzero, readFraction, notPoint, readExponent_exponentText]

private theorem readMagnitude_point_exponent (negative : Bool) (digit : Digit)
    (fraction : List Digit) (nonempty : fraction ≠ []) (exponent : Int) :
    readMagnitude negative (digitUnit digit ::
        unit '.' :: (fraction.map digitUnit ++ unit 'e' :: exponentText exponent)) =
      some (Decimal.ofDigits negative (digit :: fraction) (1 + exponent)) := by
  have stopPoint : digitOf (unit '.') = none := by decide
  have stopMark : digitOf (unit 'e') = none := by decide
  have wholeRead := readDigits_map [digit]
    (unit '.' :: (fraction.map digitUnit ++ unit 'e' :: exponentText exponent))
    (by simp [stopPoint])
  have fractionRead := readFraction_point fraction (unit 'e' :: exponentText exponent) nonempty
    (by simp [stopMark])
  simp only [List.map_cons, List.map_nil, List.cons_append, List.nil_append] at wholeRead
  simp [readMagnitude, wholeRead, fractionRead, readExponent_exponentText]

theorem Significand.head?_ne_zero (significand : Significand) :
    significand.digits.head? ≠ some 0 := by
  obtain ⟨digits, nonempty, head, last⟩ := significand
  cases digits with
  | nil => exact absurd rfl nonempty
  | cons digit rest =>
      have nonzero : digit ≠ 0 := head
      simpa using nonzero

theorem readMagnitude_magnitudeText (negative : Bool) (significand : Significand) (point : Int) :
    readMagnitude negative (magnitudeText significand.digits point) =
      some (.nonzero negative significand point) := by
  have zeroUnit : unit '0' = digitUnit 0 := by decide
  have nonempty := significand.nonempty
  have positive : 0 < significand.digits.length := List.length_pos_iff.mpr nonempty
  have headNonzero := significand.head?_ne_zero
  simp only [magnitudeText]
  by_cases integral : (significand.digits.length : Int) ≤ point ∧ point ≤ 21
  · rw [if_pos integral, zeroUnit, ← List.map_replicate, ← List.map_append,
      readMagnitude_whole]
    · have denoted := Decimal.ofDigits_significand negative significand 0
        (point - significand.digits.length).toNat point
      simp only [List.replicate_zero, List.nil_append] at denoted
      rw [← denoted]
      simp only [List.length_append, List.length_replicate]
      congr 2
      omega
    · simp [nonempty]
    · rw [List.head?_append_of_ne_nil _ nonempty]
      exact headNonzero
  · rw [if_neg integral]
    by_cases inside : 0 < point ∧ point ≤ 21
    · have short : point.toNat < significand.digits.length := by omega
      rw [if_pos inside, ← List.map_take, ← List.map_drop, readMagnitude_point]
      · have denoted := Decimal.ofDigits_significand negative significand 0 0 point
        simp only [List.replicate_zero, List.nil_append, List.append_nil] at denoted
        rw [← denoted, List.take_append_drop, List.length_take]
        congr 2
        omega
      · simp only [ne_eq, List.take_eq_nil_iff, not_or]
        exact ⟨by omega, nonempty⟩
      · intro zero
        rw [List.head?_take, if_neg (by omega)] at zero
        exact absurd zero headNonzero
      · simp only [ne_eq, List.drop_eq_nil_iff]
        omega
    · rw [if_neg inside]
      by_cases small : -6 < point ∧ point ≤ 0
      · rw [if_pos small, zeroUnit]
        have read := readMagnitude_point negative [0]
          (List.replicate (-point).toNat 0 ++ significand.digits) (by simp) (by simp)
          (by simp [nonempty])
        simp only [List.map_cons, List.map_nil, List.cons_append, List.nil_append,
          List.map_append, List.map_replicate] at read
        rw [read]
        have denoted := Decimal.ofDigits_significand negative significand
          ((-point).toNat + 1) 0 point
        simp only [List.replicate_zero, List.append_nil, List.replicate_succ,
          List.cons_append] at denoted
        rw [← denoted]
        congr 2
        simp only [List.length_cons, List.length_nil]
        omega
      · rw [if_neg small]
        by_cases single : significand.digits.length = 1
        · rw [if_pos single]
          obtain ⟨digit, shape⟩ := List.length_eq_one_iff.mp single
          have nonzero : digit ≠ 0 := by simpa [shape] using headNonzero
          have denoted := Decimal.ofDigits_significand negative significand 0 0 point
          simp only [List.replicate_zero, List.nil_append, List.append_nil, shape] at denoted
          simp only [shape, List.map_cons, List.map_nil, List.cons_append, List.nil_append]
          rw [readMagnitude_exponent negative digit nonzero, ← denoted]
          congr 2
          omega
        · rw [if_neg single]
          obtain ⟨digit, rest, shape⟩ := List.exists_cons_of_ne_nil nonempty
          have restNonempty : rest ≠ [] := by
            rintro rfl
            exact single (by simp [shape])
          have denoted := Decimal.ofDigits_significand negative significand 0 0 point
          simp only [List.replicate_zero, List.nil_append, List.append_nil, shape] at denoted
          simp only [shape, List.map_cons, List.take_succ_cons, List.take_zero, List.drop_succ_cons,
            List.drop_zero, List.cons_append, List.nil_append]
          rw [readMagnitude_point_exponent negative digit rest restNonempty, ← denoted]
          congr 2
          omega

private theorem magnitudeText_start (significand : Significand) (point : Int) :
    ∃ digit rest, magnitudeText significand.digits point = digitUnit digit :: rest := by
  have zeroUnit : unit '0' = digitUnit 0 := by decide
  obtain ⟨digit, rest, shape⟩ := List.exists_cons_of_ne_nil significand.nonempty
  simp only [magnitudeText, shape, List.map_cons]
  split_ifs with integral inside small single
  · exact ⟨digit, _, rfl⟩
  · obtain ⟨count, positive⟩ : ∃ count, point.toNat = count + 1 := ⟨point.toNat - 1, by omega⟩
    rw [positive]
    exact ⟨digit, _, rfl⟩
  · exact ⟨0, _, by rw [zeroUnit]⟩
  · exact ⟨digit, _, rfl⟩
  · exact ⟨digit, _, rfl⟩

/-- Reading the text of a decimal gives the decimal. -/
theorem readNumeral_text (decimal : Decimal) : readNumeral decimal.text = some decimal := by
  cases decimal with
  | zero => decide
  | nonzero negative significand point =>
      have read := readMagnitude_magnitudeText negative significand point
      cases negative with
      | true =>
          simp only [Decimal.text, if_true]
          exact read
      | false =>
          obtain ⟨digit, rest, start⟩ := magnitudeText_start significand point
          have notSign : digitUnit digit ≠ unit '-' := by
            intro same
            have none : digitOf (unit '-') = none := by decide
            rw [← same, digitOf_digitUnit] at none
            cases none
          rw [start] at read
          simp only [Decimal.text, Bool.false_eq_true, if_false, List.nil_append, start,
            readNumeral, if_neg notSign, read]

/-! ## The code units of a numeral -/

@[simp]
theorem isNumeralUnit_digitUnit (digit : Digit) : isNumeralUnit (digitUnit digit) = true := by
  simp [isNumeralUnit]

private theorem isNumeralUnit_exponentText (exponent : Int) :
    ∀ code ∈ exponentText exponent, isNumeralUnit code = true := by
  have plus : isNumeralUnit (unit '+') = true := by decide
  have minus : isNumeralUnit (unit '-') = true := by decide
  cases exponent <;> simp [exponentText, natText, plus, minus]

private theorem isNumeralUnit_magnitudeText (digits : List Digit) (point : Int) :
    ∀ code ∈ magnitudeText digits point, isNumeralUnit code = true := by
  have zero : isNumeralUnit (unit '0') = true := by decide
  have dot : isNumeralUnit (unit '.') = true := by decide
  have mark : isNumeralUnit (unit 'e') = true := by decide
  have digitUnits : ∀ code ∈ digits.map digitUnit, isNumeralUnit code = true := by simp
  have zeros : ∀ count : Nat, ∀ code ∈ List.replicate count (unit '0'),
      isNumeralUnit code = true := by
    intro count code member
    rw [List.eq_of_mem_replicate member, zero]
  intro code member
  simp only [magnitudeText] at member
  split_ifs at member with integral inside small single
  · rcases List.mem_append.mp member with digit | padding
    · exact digitUnits code digit
    · exact zeros _ code padding
  · rcases List.mem_append.mp member with whole | later
    · exact digitUnits code (List.mem_of_mem_take whole)
    · rcases List.mem_cons.mp later with rfl | fraction
      · exact dot
      · exact digitUnits code (List.mem_of_mem_drop fraction)
  · rcases List.mem_cons.mp member with rfl | later
    · exact zero
    · rcases List.mem_cons.mp later with rfl | fraction
      · exact dot
      · rcases List.mem_append.mp fraction with padding | digit
        · exact zeros _ code padding
        · exact digitUnits code digit
  · rcases List.mem_append.mp member with digit | later
    · exact digitUnits code digit
    · rcases List.mem_cons.mp later with rfl | exponent
      · exact mark
      · exact isNumeralUnit_exponentText _ code exponent
  · rcases List.mem_append.mp member with digit | later
    · exact digitUnits code (List.mem_of_mem_take digit)
    · rcases List.mem_cons.mp later with rfl | fraction
      · exact dot
      · rcases List.mem_append.mp fraction with digit | later
        · exact digitUnits code (List.mem_of_mem_drop digit)
        · rcases List.mem_cons.mp later with rfl | exponent
          · exact mark
          · exact isNumeralUnit_exponentText _ code exponent

/-- The text of a decimal starts with a minus sign or a digit and goes on with code
units of numerals. -/
theorem Decimal.text_shape (decimal : Decimal) :
    ∃ first rest, decimal.text = first :: rest ∧
      (first = unit '-' ∨ (digitOf first).isSome = true) ∧
      ∀ code ∈ rest, isNumeralUnit code = true := by
  cases decimal with
  | zero => exact ⟨unit '0', [], by decide, by decide, by simp⟩
  | nonzero negative significand point =>
      have units := isNumeralUnit_magnitudeText significand.digits point
      cases negative with
      | true => exact ⟨unit '-', _, rfl, Or.inl rfl, units⟩
      | false =>
          obtain ⟨digit, rest, start⟩ := magnitudeText_start significand point
          refine ⟨digitUnit digit, rest, ?_, Or.inr (by simp), ?_⟩
          · simp [Decimal.text, start]
          · intro code member
            exact units code (start ▸ List.mem_cons_of_mem _ member)

end SpecAsCode.Js
