import SpecAsCode.Js.Stringify

/-!
# UTF-8

Files hold octets.  `encodeUtf8` is how a string is written and `decodeUtf8` how a file
is read as a string: an unpaired surrogate is written as U+FFFD, and every maximal part
of an ill-formed sequence is read as U+FFFD.
-/

namespace SpecAsCode.Text

open SpecAsCode.Js

/-- An octet of a file. -/
abbrev Octet := Fin 256

instance octets_neZero : NeZero (256 : Nat) := ⟨by decide⟩

/-- The octet with a given number. -/
def octet (value : Nat) : Octet :=
  Fin.ofNat 256 value

@[simp]
theorem octet_val {value : Nat} (small : value < 256) : (octet value).val = value :=
  Nat.mod_eq_of_lt small

/-- The replacement character. -/
def replacement : CodeUnit :=
  0xFFFD

/-! ## Writing -/

/-- A part of a surrogate pair. -/
def isSurrogate (code : CodeUnit) : Bool :=
  isHighSurrogate code || isLowSurrogate code

/-- The code point of a surrogate pair. -/
def pairPoint (high low : CodeUnit) : Nat :=
  0x10000 + (high.val - 0xD800) * 0x400 + (low.val - 0xDC00)

/-- The octets of a code point. -/
def encodePoint (point : Nat) : List Octet :=
  if point < 0x80 then
    [octet point]
  else if point < 0x800 then
    [octet (0xC0 + point / 64), octet (0x80 + point % 64)]
  else if point < 0x10000 then
    [octet (0xE0 + point / 4096), octet (0x80 + point / 64 % 64), octet (0x80 + point % 64)]
  else
    [octet (0xF0 + point / 262144), octet (0x80 + point / 4096 % 64),
      octet (0x80 + point / 64 % 64), octet (0x80 + point % 64)]

/-- The octets of a code unit outside surrogate pairs. -/
def encodeUnit (code : CodeUnit) : List Octet :=
  encodePoint (if isSurrogate code then replacement.val else code.val)

def encodeUtf8 : JsString → List Octet
  | [] => []
  | [code] => encodeUnit code
  | first :: second :: rest =>
      if isHighSurrogate first && isLowSurrogate second then
        encodePoint (pairPoint first second) ++ encodeUtf8 rest
      else
        encodeUnit first ++ encodeUtf8 (second :: rest)

/-! ## Reading -/

/-- What the decoder has seen of the current sequence: nothing, or a code point with
octets missing, the next of them between two bounds. -/
inductive Decoder where
  | start
  | pending (missing low high point : Nat)

/-- The code units of a code point. -/
def pointUnits (point : Nat) : JsString :=
  if point < 0x10000 then
    [Fin.ofNat 65536 point]
  else
    [Fin.ofNat 65536 (0xD800 + (point - 0x10000) / 0x400),
      Fin.ofNat 65536 (0xDC00 + (point - 0x10000) % 0x400)]

/-- The first octet of a sequence. -/
def firstOctet (code : Octet) : JsString × Decoder :=
  if code.val < 0x80 then ([Fin.ofNat 65536 code.val], .start)
  else if code.val < 0xC2 then ([replacement], .start)
  else if code.val < 0xE0 then ([], .pending 1 0x80 0xBF (code.val - 0xC0))
  else if code.val = 0xE0 then ([], .pending 2 0xA0 0xBF 0)
  else if code.val = 0xED then ([], .pending 2 0x80 0x9F 0xD)
  else if code.val < 0xF0 then ([], .pending 2 0x80 0xBF (code.val - 0xE0))
  else if code.val = 0xF0 then ([], .pending 3 0x90 0xBF 0)
  else if code.val < 0xF4 then ([], .pending 3 0x80 0xBF (code.val - 0xF0))
  else if code.val = 0xF4 then ([], .pending 3 0x80 0x8F 4)
  else ([replacement], .start)

/-- One octet: the code units it completes, and the decoder after it.  An octet that
cannot continue a sequence ends it and starts another one. -/
def decodeStep (decoder : Decoder) (code : Octet) : JsString × Decoder :=
  match decoder with
  | .start => firstOctet code
  | .pending missing low high point =>
      if low ≤ code.val ∧ code.val ≤ high then
        if missing = 1 then
          (pointUnits (64 * point + (code.val - 0x80)), .start)
        else
          ([], .pending (missing - 1) 0x80 0xBF (64 * point + (code.val - 0x80)))
      else
        (replacement :: (firstOctet code).1, (firstOctet code).2)

/-- What is left of an unfinished sequence. -/
def Decoder.flush : Decoder → JsString
  | .start => []
  | .pending _ _ _ _ => [replacement]

def decodeFrom (decoder : Decoder) : List Octet → JsString
  | [] => decoder.flush
  | code :: rest => (decodeStep decoder code).1 ++ decodeFrom (decodeStep decoder code).2 rest

def decodeUtf8 (octets : List Octet) : JsString :=
  decodeFrom .start octets

example : decodeUtf8 [0xE2, 0x82, 0xAC, 0xE2, 0x82, 0x0A] = [0x20AC, 0xFFFD, 0x0A] := by decide

/-! ## ASCII octets divide a file -/

theorem decodeStep_ascii (decoder : Decoder) {code : Octet} (ascii : code.val < 0x80)
    (bounded : ∀ missing low high point, decoder = .pending missing low high point → 0x80 ≤ low) :
    decodeStep decoder code = (decoder.flush ++ [Fin.ofNat 65536 code.val], .start) := by
  cases decoder with
  | start => simp [decodeStep, firstOctet, ascii, Decoder.flush]
  | pending missing low high point =>
      have low := bounded missing low high point rfl
      simp [decodeStep, firstOctet, ascii, Decoder.flush]
      omega

/-- A pending sequence never goes on with an ASCII octet. -/
def Decoder.Bounded : Decoder → Prop
  | .start => True
  | .pending _ low _ _ => 0x80 ≤ low

theorem bounded_firstOctet (code : Octet) : (firstOctet code).2.Bounded := by
  rw [firstOctet]
  split_ifs <;> simp [Decoder.Bounded]

theorem bounded_decodeStep (decoder : Decoder) (code : Octet) :
    (decodeStep decoder code).2.Bounded := by
  cases decoder with
  | start => exact bounded_firstOctet code
  | pending missing low high point =>
      rw [decodeStep]
      split_ifs
      · exact trivial
      · simp [Decoder.Bounded]
      · exact bounded_firstOctet code

theorem decodeFrom_ascii {decoder : Decoder} (bounded : decoder.Bounded) (before : List Octet)
    {code : Octet} (ascii : code.val < 0x80) (rest : List Octet) :
    decodeFrom decoder (before ++ code :: rest) =
      decodeFrom decoder before ++ Fin.ofNat 65536 code.val :: decodeUtf8 rest := by
  induction before generalizing decoder with
  | nil =>
      have step := decodeStep_ascii decoder ascii (by rintro _ _ _ _ rfl; exact bounded)
      simp [decodeFrom, step, decodeUtf8]
  | cons first before inductionHypothesis =>
      simp [decodeFrom, inductionHypothesis (bounded_decodeStep decoder first)]

/-- A file is read piece by piece at its ASCII octets. -/
theorem decodeUtf8_ascii (before : List Octet) {code : Octet} (ascii : code.val < 0x80)
    (rest : List Octet) :
    decodeUtf8 (before ++ code :: rest) =
      decodeUtf8 before ++ Fin.ofNat 65536 code.val :: decodeUtf8 rest :=
  @decodeFrom_ascii .start trivial before code ascii rest

/-! ## Reading what was written -/

/-- A Unicode scalar value. -/
def IsScalar (point : Nat) : Prop :=
  point < 0x110000 ∧ ¬ (0xD800 ≤ point ∧ point < 0xE000)

private theorem firstOctet_two {lead : Nat} (low : 2 ≤ lead) (high : lead < 32) :
    firstOctet (octet (0xC0 + lead)) = ([], .pending 1 0x80 0xBF lead) := by
  have value : (octet (0xC0 + lead)).val = 0xC0 + lead := octet_val (by omega)
  rw [firstOctet, value, if_neg (by omega), if_neg (by omega), if_pos (by omega),
    Nat.add_sub_cancel_left]

private theorem firstOctet_three {lead : Nat} (high : lead < 16) :
    firstOctet (octet (0xE0 + lead)) =
      ([], .pending 2 (if lead = 0 then 0xA0 else 0x80) (if lead = 13 then 0x9F else 0xBF) lead) := by
  have value : (octet (0xE0 + lead)).val = 0xE0 + lead := octet_val (by omega)
  rw [firstOctet, value, if_neg (by omega), if_neg (by omega), if_neg (by omega)]
  by_cases zero : lead = 0
  · subst zero
    rfl
  · rw [if_neg (by omega), if_neg zero]
    by_cases thirteen : lead = 13
    · subst thirteen
      rfl
    · rw [if_neg (by omega), if_pos (by omega), if_neg thirteen, Nat.add_sub_cancel_left]

private theorem firstOctet_four {lead : Nat} (high : lead < 5) :
    firstOctet (octet (0xF0 + lead)) =
      ([], .pending 3 (if lead = 0 then 0x90 else 0x80) (if lead = 4 then 0x8F else 0xBF) lead) := by
  have value : (octet (0xF0 + lead)).val = 0xF0 + lead := octet_val (by omega)
  rw [firstOctet, value, if_neg (by omega), if_neg (by omega), if_neg (by omega),
    if_neg (by omega), if_neg (by omega), if_neg (by omega)]
  by_cases zero : lead = 0
  · subst zero
    rfl
  · rw [if_neg (by omega), if_neg zero]
    by_cases four : lead = 4
    · subst four
      rfl
    · rw [if_pos (by omega), if_neg four, Nat.add_sub_cancel_left]

private theorem decodeStep_continue {missing low high point digit : Nat} (more : missing ≠ 1)
    (small : digit < 64) (above : low ≤ 0x80 + digit) (below : 0x80 + digit ≤ high) :
    decodeStep (.pending missing low high point) (octet (0x80 + digit)) =
      ([], .pending (missing - 1) 0x80 0xBF (64 * point + digit)) := by
  have value : (octet (0x80 + digit)).val = 0x80 + digit := octet_val (by omega)
  rw [decodeStep, value, if_pos ⟨above, below⟩, if_neg more, Nat.add_sub_cancel_left]

private theorem decodeStep_last {low high point digit : Nat} (small : digit < 64)
    (above : low ≤ 0x80 + digit) (below : 0x80 + digit ≤ high) :
    decodeStep (.pending 1 low high point) (octet (0x80 + digit)) =
      (pointUnits (64 * point + digit), .start) := by
  have value : (octet (0x80 + digit)).val = 0x80 + digit := octet_val (by omega)
  rw [decodeStep, value, if_pos ⟨above, below⟩, if_pos rfl, Nat.add_sub_cancel_left]

/-- The states of the decoder in the middle of the octets of a code point, and the code
units it gives at the end. -/
private theorem decodeSteps_encodePoint {point : Nat} (scalar : IsScalar point) :
    ∃ first others, encodePoint point = first :: others ∧
      ((others = [] ∧ firstOctet first = (pointUnits point, .start)) ∨
        ∃ missing low high lead, firstOctet first = ([], .pending missing low high lead) ∧
          ∀ rest, decodeFrom (.pending missing low high lead) (others ++ rest) =
              pointUnits point ++ decodeUtf8 rest ∧
            ∀ count < others.length,
              decodeFrom (.pending missing low high lead) (others.take count) = [replacement]) := by
  obtain ⟨bound, notSurrogate⟩ := scalar
  rw [encodePoint]
  split_ifs with one two three
  · refine ⟨_, _, rfl, Or.inl ⟨rfl, ?_⟩⟩
    have value : (octet point).val = point := octet_val (by omega)
    rw [firstOctet, value, if_pos one, pointUnits, if_pos (by omega)]
  · refine ⟨_, _, rfl, Or.inr ⟨_, _, _, _, firstOctet_two (by omega) (by omega), ?_⟩⟩
    intro rest
    constructor
    · rw [List.singleton_append, decodeFrom,
        decodeStep_last (by omega) (by omega) (by omega), Nat.div_add_mod]
      rfl
    · intro count short
      have zero : count = 0 := by simpa using short
      rw [zero]
      rfl
  · refine ⟨_, _, rfl, Or.inr ⟨_, _, _, _, firstOctet_three (by omega), ?_⟩⟩
    have second : decodeStep (.pending 2 (if point / 4096 = 0 then 0xA0 else 0x80)
        (if point / 4096 = 13 then 0x9F else 0xBF) (point / 4096))
        (octet (0x80 + point / 64 % 64)) = ([], .pending 1 0x80 0xBF (point / 64)) := by
      rw [decodeStep_continue (by decide) (by omega) (by split <;> omega) (by split <;> omega)]
      congr 2
      omega
    intro rest
    constructor
    · rw [List.cons_append, decodeFrom, second, List.singleton_append, decodeFrom,
        decodeStep_last (by omega) (by omega) (by omega), Nat.div_add_mod]
      rfl
    · intro count short
      match count, short with
      | 0, _ => rfl
      | 1, _ =>
          rw [List.take_succ_cons, List.take_zero, decodeFrom, second]
          rfl
  · refine ⟨_, _, rfl, Or.inr ⟨_, _, _, _, firstOctet_four (by omega), ?_⟩⟩
    have second : decodeStep (.pending 3 (if point / 262144 = 0 then 0x90 else 0x80)
        (if point / 262144 = 4 then 0x8F else 0xBF) (point / 262144))
        (octet (0x80 + point / 4096 % 64)) = ([], .pending 2 0x80 0xBF (point / 4096)) := by
      rw [decodeStep_continue (by decide) (by omega) (by split <;> omega) (by split <;> omega)]
      congr 2
      omega
    have third : decodeStep (.pending 2 0x80 0xBF (point / 4096))
        (octet (0x80 + point / 64 % 64)) = ([], .pending 1 0x80 0xBF (point / 64)) := by
      rw [decodeStep_continue (by decide) (by omega) (by omega) (by omega)]
      congr 2
      omega
    intro rest
    constructor
    · rw [List.cons_append, decodeFrom, second, List.cons_append, decodeFrom, third,
        List.singleton_append, decodeFrom, decodeStep_last (by omega) (by omega) (by omega),
        Nat.div_add_mod]
      rfl
    · intro count short
      match count, short with
      | 0, _ => rfl
      | 1, _ =>
          rw [List.take_succ_cons, List.take_zero, decodeFrom, second]
          rfl
      | 2, _ =>
          rw [List.take_succ_cons, List.take_succ_cons, List.take_zero, decodeFrom, second,
            decodeFrom, third]
          rfl

theorem decodeUtf8_encodePoint {point : Nat} (scalar : IsScalar point) (rest : List Octet) :
    decodeUtf8 (encodePoint point ++ rest) = pointUnits point ++ decodeUtf8 rest := by
  obtain ⟨first, others, octets, ⟨rfl, whole⟩ | ⟨missing, low, high, lead, started, read⟩⟩ :=
    decodeSteps_encodePoint scalar
  · rw [octets, List.singleton_append, decodeUtf8, decodeFrom, decodeStep, whole]
    rfl
  · rw [octets, List.cons_append, decodeUtf8, decodeFrom, decodeStep, started]
    exact (read rest).1

/-- A part of the octets of a code point is read as one replacement character. -/
theorem decodeUtf8_take_encodePoint {point count : Nat} (scalar : IsScalar point)
    (some : count ≠ 0) (short : count < (encodePoint point).length) :
    decodeUtf8 ((encodePoint point).take count) = [replacement] := by
  obtain ⟨first, others, octets, ⟨rfl, whole⟩ | ⟨missing, low, high, lead, started, read⟩⟩ :=
    decodeSteps_encodePoint scalar
  · rw [octets, List.length_singleton] at short
    omega
  · obtain ⟨others_count, rfl⟩ : ∃ before, count = before + 1 := ⟨count - 1, by omega⟩
    rw [octets, List.length_cons] at short
    rw [octets, List.take_succ_cons, decodeUtf8, decodeFrom, decodeStep, started]
    exact (read []).2 others_count (by omega)

/-- The string has no surrogate outside a pair. -/
def isWellFormedText : JsString → Bool
  | [] => true
  | [code] => !isSurrogate code
  | first :: second :: rest =>
      if isHighSurrogate first && isLowSurrogate second then
        isWellFormedText rest
      else
        !isSurrogate first && isWellFormedText (second :: rest)

theorem isWellFormedText_cons {code : CodeUnit} (plain : isSurrogate code = false)
    {text : JsString} (wellFormed : isWellFormedText text = true) :
    isWellFormedText (code :: text) = true := by
  have notHigh : isHighSurrogate code = false := by
    simp only [isSurrogate, Bool.or_eq_false_iff] at plain
    exact plain.1
  cases text with
  | nil => simp [isWellFormedText, plain]
  | cons next rest => simp [isWellFormedText, notHigh, plain, wellFormed]

theorem isWellFormedText_append {first second : JsString}
    (wellFormed : isWellFormedText first = true)
    (otherWellFormed : isWellFormedText second = true) :
    isWellFormedText (first ++ second) = true := by
  fun_induction isWellFormedText first with
  | case1 => exact otherWellFormed
  | case2 code =>
      exact isWellFormedText_cons (by simpa using wellFormed) otherWellFormed
  | case3 high low rest pair inductionHypothesis =>
      simp only [List.cons_append, isWellFormedText, if_pos pair]
      exact inductionHypothesis wellFormed
  | case4 code next rest lone inductionHypothesis =>
      rw [Bool.and_eq_true, Bool.not_eq_true'] at wellFormed
      exact isWellFormedText_cons wellFormed.1 (inductionHypothesis wellFormed.2)

theorem isScalar_unit {code : CodeUnit} (plain : isSurrogate code = false) :
    IsScalar code.val := by
  simp only [isSurrogate, isHighSurrogate, isLowSurrogate, Bool.or_eq_false_iff,
    Bool.and_eq_false_iff, decide_eq_false_iff_not] at plain
  have bound := code.isLt
  exact ⟨by omega, by omega⟩

theorem pointUnits_unit (code : CodeUnit) : pointUnits code.val = [code] := by
  rw [pointUnits, if_pos code.isLt, Fin.ofNat_val_eq_self]

private theorem encodeUnit_plain {code : CodeUnit} (plain : isSurrogate code = false) :
    encodeUnit code = encodePoint code.val := by
  rw [encodeUnit, plain]
  rfl

theorem pair_facts {first second : CodeUnit}
    (pair : (isHighSurrogate first && isLowSurrogate second) = true) :
    IsScalar (pairPoint first second) ∧ pointUnits (pairPoint first second) = [first, second] := by
  simp only [isHighSurrogate, isLowSurrogate, Bool.and_eq_true, decide_eq_true_eq] at pair
  obtain ⟨upper, upperEqual⟩ : ∃ upper, first.val = 0xD800 + upper := ⟨first.val - 0xD800, by omega⟩
  obtain ⟨lower, lowerEqual⟩ : ∃ lower, second.val = 0xDC00 + lower :=
    ⟨second.val - 0xDC00, by omega⟩
  have point : pairPoint first second = 0x10000 + (upper * 0x400 + lower) := by
    unfold pairPoint
    omega
  have upperBound : upper < 0x400 := by omega
  have lowerBound : lower < 0x400 := by omega
  rw [point]
  refine ⟨⟨by omega, by omega⟩, ?_⟩
  rw [pointUnits, if_neg (by omega), Nat.add_sub_cancel_left]
  have division : (upper * 0x400 + lower) / 0x400 = upper := by omega
  have remainder : (upper * 0x400 + lower) % 0x400 = lower := by omega
  rw [division, remainder, ← upperEqual, ← lowerEqual, Fin.ofNat_val_eq_self, Fin.ofNat_val_eq_self]

/-- A well-formed text is written code point by code point. -/
theorem encodeUtf8_append {first : JsString} (wellFormed : isWellFormedText first = true)
    (second : JsString) : encodeUtf8 (first ++ second) = encodeUtf8 first ++ encodeUtf8 second := by
  have plain_cons : ∀ (code : CodeUnit) (text : JsString), isSurrogate code = false →
      encodeUtf8 (code :: text) = encodeUnit code ++ encodeUtf8 text := by
    intro code text plain
    have notHigh : isHighSurrogate code = false := by
      simp only [isSurrogate, Bool.or_eq_false_iff] at plain
      exact plain.1
    cases text with
    | nil => simp [encodeUtf8]
    | cons next rest => simp [encodeUtf8, notHigh]
  fun_induction isWellFormedText first with
  | case1 => rfl
  | case2 code => exact plain_cons code second (by simpa using wellFormed)
  | case3 high low rest pair inductionHypothesis =>
      simp only [List.cons_append, encodeUtf8, if_pos pair, inductionHypothesis wellFormed,
        List.append_assoc]
  | case4 code next rest lone inductionHypothesis =>
      rw [Bool.and_eq_true, Bool.not_eq_true'] at wellFormed
      rw [List.cons_append, plain_cons _ _ wellFormed.1, plain_cons _ _ wellFormed.1,
        inductionHypothesis wellFormed.2, List.append_assoc]

/-- A well-formed string is read back. -/
theorem decodeUtf8_encodeUtf8 (text : JsString) (wellFormed : isWellFormedText text = true)
    (rest : List Octet) : decodeUtf8 (encodeUtf8 text ++ rest) = text ++ decodeUtf8 rest := by
  fun_induction encodeUtf8 text with
  | case1 => rfl
  | case2 code =>
      have plain : isSurrogate code = false := by simpa [isWellFormedText] using wellFormed
      rw [encodeUnit_plain plain, decodeUtf8_encodePoint (isScalar_unit plain), pointUnits_unit]
  | case3 first second others pair inductionHypothesis =>
      rw [isWellFormedText, if_pos pair] at wellFormed
      obtain ⟨scalar, units⟩ := pair_facts pair
      rw [List.append_assoc, decodeUtf8_encodePoint scalar, units, inductionHypothesis wellFormed]
      rfl
  | case4 first second others lone inductionHypothesis =>
      rw [isWellFormedText, if_neg lone, Bool.and_eq_true, Bool.not_eq_true'] at wellFormed
      rw [List.append_assoc, encodeUnit_plain wellFormed.1,
        decodeUtf8_encodePoint (isScalar_unit wellFormed.1), pointUnits_unit,
        inductionHypothesis wellFormed.2]
      rfl

/-- A part of the octets of a well-formed string is read as a proper prefix of the
string, with a replacement character for a code point that was cut. -/
theorem decodeUtf8_take_encodeUtf8 (text : JsString) (wellFormed : isWellFormedText text = true)
    {count : Nat} (short : count < (encodeUtf8 text).length) :
    ∃ before code after, text = before ++ code :: after ∧
      (decodeUtf8 ((encodeUtf8 text).take count) = before ∨
        decodeUtf8 ((encodeUtf8 text).take count) = before ++ [replacement]) := by
  -- a cut inside the first code point, or after it
  have cut : ∀ {point : Nat} (code : CodeUnit) (units : JsString) (rest : JsString)
      (count : Nat), IsScalar point → pointUnits point = code :: units →
      count < (encodePoint point ++ encodeUtf8 rest).length →
      (∀ less < (encodeUtf8 rest).length, ∃ before code after, rest = before ++ code :: after ∧
        (decodeUtf8 ((encodeUtf8 rest).take less) = before ∨
          decodeUtf8 ((encodeUtf8 rest).take less) = before ++ [replacement])) →
      ∃ before other after, code :: units ++ rest = before ++ other :: after ∧
        (decodeUtf8 ((encodePoint point ++ encodeUtf8 rest).take count) = before ∨
          decodeUtf8 ((encodePoint point ++ encodeUtf8 rest).take count) =
            before ++ [replacement]) := by
    intro point code units rest count scalar unitsEqual short later
    by_cases inside : count < (encodePoint point).length
    · refine ⟨[], code, units ++ rest, rfl, ?_⟩
      rw [List.take_append_of_le_length (by omega)]
      by_cases zero : count = 0
      · rw [zero]
        exact Or.inl rfl
      · exact Or.inr (decodeUtf8_take_encodePoint scalar zero inside)
    · rw [List.length_append] at short
      obtain ⟨before, other, after, shape, read⟩ :=
        later (count - (encodePoint point).length) (by omega)
      refine ⟨code :: units ++ before, other, after, by rw [shape, List.append_assoc], ?_⟩
      rw [List.take_append, List.take_of_length_le (by omega), decodeUtf8_encodePoint scalar,
        unitsEqual, List.append_assoc, List.append_cancel_left_eq, List.append_cancel_left_eq]
      exact read
  fun_induction encodeUtf8 text generalizing count with
  | case1 => exact absurd short (by simp)
  | case2 code =>
      have plain : isSurrogate code = false := by simpa [isWellFormedText] using wellFormed
      rw [encodeUnit_plain plain] at short ⊢
      have found := cut code [] [] count (isScalar_unit plain) (pointUnits_unit code)
        (by simpa [encodeUtf8] using short) (by intro less small; exact absurd small (by simp [encodeUtf8]))
      simpa [encodeUtf8] using found
  | case3 first second others pair inductionHypothesis =>
      rw [isWellFormedText, if_pos pair] at wellFormed
      obtain ⟨scalar, units⟩ := pair_facts pair
      exact cut first [second] others count scalar units short
        fun less small => inductionHypothesis wellFormed small
  | case4 first second others lone inductionHypothesis =>
      rw [isWellFormedText, if_neg lone, Bool.and_eq_true, Bool.not_eq_true'] at wellFormed
      rw [encodeUnit_plain wellFormed.1] at short ⊢
      exact cut first [] (second :: others) count (isScalar_unit wellFormed.1)
        (pointUnits_unit first) short fun less small => inductionHypothesis wellFormed.2 small

end SpecAsCode.Text
