import SpecAsCode.Lib.Occurrence
import SpecAsCode.Text.Utf8

/-!
# Searching UTF-8

A well-formed text occurs in another one exactly where its octets occur in the octets of
the other one.
-/

namespace SpecAsCode.Text

open SpecAsCode.Js

/-- An octet inside the sequence of a code point. -/
def IsContinuation (code : Octet) : Prop :=
  0x80 ≤ code.val ∧ code.val < 0xC0

/-- Only the first octet of a code point is no continuation. -/
theorem encodePoint_shape {point : Nat} (scalar : IsScalar point) :
    ∃ lead others, encodePoint point = lead :: others ∧ ¬ IsContinuation lead ∧
      ∀ code ∈ others, IsContinuation code := by
  obtain ⟨bound, -⟩ := scalar
  have continuation : ∀ digit < 64, IsContinuation (octet (0x80 + digit)) := by
    intro digit small
    have value : (octet (0x80 + digit)).val = 0x80 + digit := octet_val (by omega)
    exact ⟨by omega, by omega⟩
  have leading : ∀ value < 256, (value < 0x80 ∨ 0xC0 ≤ value) → ¬ IsContinuation (octet value) := by
    intro value small outside inside
    have same : (octet value).val = value := octet_val small
    rw [IsContinuation, same] at inside
    omega
  rw [encodePoint]
  split_ifs with one two three
  · exact ⟨_, [], rfl, leading _ (by omega) (by omega), by simp⟩
  · refine ⟨_, _, rfl, leading _ (by omega) (by omega), ?_⟩
    simp only [List.mem_singleton, forall_eq]
    exact continuation _ (by omega)
  · refine ⟨_, _, rfl, leading _ (by omega) (by omega), ?_⟩
    simp only [List.mem_cons, List.not_mem_nil, or_false, forall_eq_or_imp, forall_eq]
    exact ⟨continuation _ (by omega), continuation _ (by omega)⟩
  · refine ⟨_, _, rfl, leading _ (by omega) (by omega), ?_⟩
    simp only [List.mem_cons, List.not_mem_nil, or_false, forall_eq_or_imp, forall_eq]
    exact ⟨continuation _ (by omega), continuation _ (by omega), continuation _ (by omega)⟩

/-- The code units of a code point form a well-formed text. -/
theorem pointUnits_facts {point : Nat} (scalar : IsScalar point) :
    isWellFormedText (pointUnits point) = true ∧ encodeUtf8 (pointUnits point) = encodePoint point ∧
      ∃ first more, pointUnits point = first :: more ∧ isLowSurrogate first = false ∧
        ∀ code ∈ more, isLowSurrogate code = true := by
  obtain ⟨bound, notSurrogate⟩ := scalar
  rw [pointUnits]
  split_ifs with basic
  · have value : (Fin.ofNat 65536 point).val = point := Nat.mod_eq_of_lt basic
    have plain : isSurrogate (Fin.ofNat 65536 point) = false := by
      simp only [isSurrogate, isHighSurrogate, isLowSurrogate, value, Bool.or_eq_false_iff,
        Bool.and_eq_false_iff, decide_eq_false_iff_not]
      omega
    refine ⟨?_, ?_, _, [], rfl, ?_, by simp⟩
    · rw [isWellFormedText, plain]
      rfl
    · rw [encodeUtf8, encodeUnit, plain]
      simp only [Bool.false_eq_true, if_false]
      rw [value]
    · simp only [isSurrogate, Bool.or_eq_false_iff] at plain
      exact plain.2
  · have highValue : (Fin.ofNat 65536 (0xD800 + (point - 0x10000) / 0x400)).val =
        0xD800 + (point - 0x10000) / 0x400 := Nat.mod_eq_of_lt (by omega)
    have lowValue : (Fin.ofNat 65536 (0xDC00 + (point - 0x10000) % 0x400)).val =
        0xDC00 + (point - 0x10000) % 0x400 := Nat.mod_eq_of_lt (by omega)
    generalize highEqual : Fin.ofNat 65536 (0xD800 + (point - 0x10000) / 0x400) = high at highValue
    generalize lowEqual : Fin.ofNat 65536 (0xDC00 + (point - 0x10000) % 0x400) = low at lowValue
    have highSurrogate : isHighSurrogate high = true := by
      simp only [isHighSurrogate, highValue, Bool.and_eq_true, decide_eq_true_eq]
      omega
    have lowSurrogate : isLowSurrogate low = true := by
      simp only [isLowSurrogate, lowValue, Bool.and_eq_true, decide_eq_true_eq]
      omega
    have whole : pairPoint high low = point := by
      unfold pairPoint
      omega
    refine ⟨?_, ?_, high, [low], rfl, ?_, ?_⟩
    · simp [isWellFormedText, highSurrogate, lowSurrogate]
    · simp [encodeUtf8, highSurrogate, lowSurrogate, whole]
    · simp only [isLowSurrogate, highValue, Bool.and_eq_false_iff, decide_eq_false_iff_not]
      omega
    · intro code member
      rw [List.mem_singleton.mp member]
      exact lowSurrogate

/-- Induction over the code points of a well-formed text. -/
theorem wellFormed_induction {motive : JsString → Prop} (nil : motive [])
    (point : ∀ point rest, IsScalar point → isWellFormedText rest = true → motive rest →
      motive (pointUnits point ++ rest)) :
    ∀ text, isWellFormedText text = true → motive text := by
  have plainPoint : ∀ (code : CodeUnit) (rest : JsString), isSurrogate code = false →
      isWellFormedText rest = true → motive rest → motive (code :: rest) := by
    intro code rest plain wellFormed holds
    have step := point code.val rest (isScalar_unit plain) wellFormed holds
    rw [pointUnits_unit] at step
    exact step
  intro text wellFormed
  fun_induction isWellFormedText text with
  | case1 => exact nil
  | case2 code => exact plainPoint code [] (by simpa using wellFormed) rfl nil
  | case3 high low rest pair inductionHypothesis =>
      obtain ⟨scalar, units⟩ := pair_facts pair
      have step := point _ rest scalar wellFormed (inductionHypothesis wellFormed)
      rw [units] at step
      exact step
  | case4 code next rest lone inductionHypothesis =>
      rw [Bool.and_eq_true, Bool.not_eq_true'] at wellFormed
      exact plainPoint code (next :: rest) wellFormed.1 wellFormed.2
        (inductionHypothesis wellFormed.2)

theorem encodeUtf8_pointUnits {point : Nat} (scalar : IsScalar point) (rest : JsString) :
    encodeUtf8 (pointUnits point ++ rest) = encodePoint point ++ encodeUtf8 rest := by
  obtain ⟨wellFormed, octets, -⟩ := pointUnits_facts scalar
  rw [encodeUtf8_append wellFormed, octets]

/-- A written text is read as the text. -/
theorem decodeUtf8_wellFormed {text : JsString} (wellFormed : isWellFormedText text = true) :
    decodeUtf8 (encodeUtf8 text) = text := by
  have read := decodeUtf8_encodeUtf8 text wellFormed []
  simpa [decodeUtf8, decodeFrom, Decoder.flush] using read

theorem encodeUtf8_injective {text other : JsString} (wellFormed : isWellFormedText text = true)
    (otherWellFormed : isWellFormedText other = true) (same : encodeUtf8 text = encodeUtf8 other) :
    text = other := by
  rw [← decodeUtf8_wellFormed wellFormed, same, decodeUtf8_wellFormed otherWellFormed]

/-- What stands behind a plain code unit. -/
theorem isWellFormedText_of_append {before rest : JsString} {code : CodeUnit}
    (plain : isSurrogate code = false)
    (wellFormed : isWellFormedText (before ++ code :: rest) = true) :
    isWellFormedText rest = true := by
  have plainParts := plain
  simp only [isSurrogate, Bool.or_eq_false_iff] at plainParts
  have alone : isWellFormedText (code :: rest) = true → isWellFormedText rest = true := by
    intro whole
    cases rest with
    | nil => rfl
    | cons next rest => simpa [isWellFormedText, plainParts.1, plain] using whole
  fun_induction isWellFormedText before with
  | case1 => exact alone wellFormed
  | case2 first =>
      rw [List.singleton_append, isWellFormedText, plainParts.2, Bool.and_false,
        if_neg Bool.false_ne_true, Bool.and_eq_true] at wellFormed
      exact alone wellFormed.2
  | case3 high low more pair inductionHypothesis =>
      rw [List.cons_append, List.cons_append, isWellFormedText, if_pos pair] at wellFormed
      exact inductionHypothesis wellFormed
  | case4 first next more lone inductionHypothesis =>
      rw [List.cons_append, List.cons_append, isWellFormedText, if_neg lone,
        Bool.and_eq_true] at wellFormed
      exact inductionHypothesis wellFormed.2

/-- A text without the code unit 0 is written without the octet 0. -/
theorem zero_notMem_encodeUtf8 {text : JsString} (wellFormed : isWellFormedText text = true)
    (free : (0 : CodeUnit) ∉ text) : (0 : Octet) ∉ encodeUtf8 text := by
  intro member
  obtain ⟨before, rest, written⟩ := List.append_of_mem member
  have read := decodeUtf8_wellFormed wellFormed
  rw [written, decodeUtf8_ascii before (by decide)] at read
  exact free (read ▸ List.mem_append_right _ List.mem_cons_self)

section Search

variable {part : JsString} (wellFormed : isWellFormedText part = true)

include wellFormed

theorem isPrefixOf_encodeUtf8 (text : JsString) (textWellFormed : isWellFormedText text = true) :
    (encodeUtf8 part).isPrefixOf (encodeUtf8 text) = part.isPrefixOf text := by
  rw [Bool.eq_iff_iff, Occurrence.isPrefixOf_iff, Occurrence.isPrefixOf_iff]
  constructor
  · rintro ⟨after, split⟩
    refine ⟨decodeUtf8 after, ?_⟩
    rw [← decodeUtf8_encodeUtf8 part wellFormed after, ← split, decodeUtf8_wellFormed textWellFormed]
  · rintro ⟨after, rfl⟩
    exact ⟨encodeUtf8 after, encodeUtf8_append wellFormed after⟩

/-- A text starts with a code unit, and its octets with an octet, that stands nowhere
inside a code point. -/
private theorem part_starts (nonempty : part ≠ []) :
    (∃ first rest, part = first :: rest ∧ isLowSurrogate first = false) ∧
      ∃ lead rest, encodeUtf8 part = lead :: rest ∧ ¬ IsContinuation lead := by
  revert nonempty
  refine wellFormed_induction (motive := fun part => part ≠ [] →
    (∃ first rest, part = first :: rest ∧ isLowSurrogate first = false) ∧
      ∃ lead rest, encodeUtf8 part = lead :: rest ∧ ¬ IsContinuation lead)
    (fun empty => absurd rfl empty) ?_ part wellFormed
  intro point rest scalar _ _ _
  obtain ⟨-, -, first, more, units, notLow, -⟩ := pointUnits_facts scalar
  obtain ⟨lead, others, octets, leading, -⟩ := encodePoint_shape scalar
  rw [encodeUtf8_pointUnits scalar, units, octets]
  exact ⟨⟨first, more ++ rest, rfl, notLow⟩, lead, others ++ encodeUtf8 rest, rfl, leading⟩

theorem count_encodeUtf8 (nonempty : part ≠ []) (text : JsString)
    (textWellFormed : isWellFormedText text = true) :
    Occurrence.count (encodeUtf8 part) (encodeUtf8 text) = Occurrence.count part text := by
  obtain ⟨⟨start, partRest, partShape, notLow⟩, head, octetRest, octetShape, leading⟩ :=
    part_starts wellFormed nonempty
  refine wellFormed_induction (motive := fun text =>
    Occurrence.count (encodeUtf8 part) (encodeUtf8 text) = Occurrence.count part text)
    ?_ ?_ text textWellFormed
  · rw [encodeUtf8, Occurrence.count, Occurrence.count, octetShape, partShape]
    rfl
  · intro point rest scalar restWellFormed inductionHypothesis
    obtain ⟨unitsWellFormed, -, first, more, units, -, low⟩ := pointUnits_facts scalar
    obtain ⟨lead, others, octets, -, continuations⟩ := encodePoint_shape scalar
    have same := isPrefixOf_encodeUtf8 wellFormed (pointUnits point ++ rest)
      (isWellFormedText_append unitsWellFormed restWellFormed)
    have textSkip : Occurrence.count part (more ++ rest) = Occurrence.count part rest := by
      rw [partShape]
      refine Occurrence.count_skip rest fun member => ?_
      rw [low start member] at notLow
      cases notLow
    have octetSkip : Occurrence.count (encodeUtf8 part) (others ++ encodeUtf8 rest) =
        Occurrence.count (encodeUtf8 part) (encodeUtf8 rest) := by
      rw [octetShape]
      exact Occurrence.count_skip _ fun member => leading (continuations head member)
    rw [encodeUtf8_pointUnits scalar] at same ⊢
    rw [units, octets, List.cons_append, List.cons_append] at same ⊢
    rw [Occurrence.count, Occurrence.count, textSkip, octetSkip, inductionHypothesis, same]

theorem split_encodeUtf8 (nonempty : part ≠ []) (text : JsString)
    (textWellFormed : isWellFormedText text = true) :
    Occurrence.split (encodeUtf8 part) (encodeUtf8 text) =
      (Occurrence.split part text).map (Prod.map encodeUtf8 encodeUtf8) := by
  obtain ⟨⟨start, partRest, partShape, notLow⟩, head, octetRest, octetShape, leading⟩ :=
    part_starts wellFormed nonempty
  refine wellFormed_induction (motive := fun text =>
    Occurrence.split (encodeUtf8 part) (encodeUtf8 text) =
      (Occurrence.split part text).map (Prod.map encodeUtf8 encodeUtf8)) ?_ ?_ text textWellFormed
  · rw [encodeUtf8, Occurrence.split, Occurrence.split, octetShape, partShape]
    rfl
  · intro point rest scalar restWellFormed inductionHypothesis
    obtain ⟨unitsWellFormed, -, first, more, units, -, low⟩ := pointUnits_facts scalar
    obtain ⟨lead, others, octets, -, continuations⟩ := encodePoint_shape scalar
    have same := isPrefixOf_encodeUtf8 wellFormed (pointUnits point ++ rest)
      (isWellFormedText_append unitsWellFormed restWellFormed)
    have textSkip : Occurrence.split part (more ++ rest) =
        (Occurrence.split part rest).map (Prod.map (more ++ ·) id) := by
      rw [partShape]
      refine Occurrence.split_skip rest fun member => ?_
      rw [low start member] at notLow
      cases notLow
    have octetSkip : Occurrence.split (encodeUtf8 part) (others ++ encodeUtf8 rest) =
        (Occurrence.split (encodeUtf8 part) (encodeUtf8 rest)).map (Prod.map (others ++ ·) id) := by
      rw [octetShape]
      exact Occurrence.split_skip _ fun member => leading (continuations head member)
    have grown : ∀ before, encodeUtf8 (first :: (more ++ before)) =
        lead :: (others ++ encodeUtf8 before) := by
      intro before
      have octetsBefore := encodeUtf8_pointUnits scalar before
      rw [units, octets] at octetsBefore
      exact octetsBefore
    rw [units, List.cons_append] at same ⊢
    rw [grown] at same ⊢
    rw [Occurrence.split, Occurrence.split, same, textSkip, octetSkip, inductionHypothesis]
    split_ifs with here
    · obtain ⟨after, shape⟩ := Occurrence.isPrefixOf_iff.mp here
      rw [← grown, shape, encodeUtf8_append wellFormed, List.drop_left, Option.map_some,
        List.drop_left]
      rfl
    · cases Occurrence.split part rest with
      | none => rfl
      | some parts => simp [grown]

end Search

/-! ## Parts of well-formed texts -/

/-- What stands before and after a boundary of code points. -/
theorem wellFormed_of_append {first second : JsString}
    (wellFormed : isWellFormedText (first ++ second) = true)
    (boundary : ∀ code rest, second = code :: rest → isLowSurrogate code = false) :
    isWellFormedText first = true ∧ isWellFormedText second = true := by
  fun_induction isWellFormedText first with
  | case1 => exact ⟨rfl, wellFormed⟩
  | case2 code =>
      cases second with
      | nil => exact ⟨by simpa [isWellFormedText] using wellFormed, rfl⟩
      | cons next rest =>
          have notLow := boundary next rest rfl
          simpa [isWellFormedText, notLow] using wellFormed
  | case3 high low rest pair inductionHypothesis =>
      rw [List.cons_append, List.cons_append, isWellFormedText, if_pos pair] at wellFormed
      exact inductionHypothesis wellFormed
  | case4 code next rest lone inductionHypothesis =>
      rw [List.cons_append, List.cons_append, isWellFormedText, if_neg lone,
        Bool.and_eq_true] at wellFormed
      obtain ⟨firstWellFormed, secondWellFormed⟩ := inductionHypothesis wellFormed.2
      exact ⟨by rw [Bool.and_eq_true]; exact ⟨wellFormed.1, firstWellFormed⟩, secondWellFormed⟩

theorem wellFormed_right {first second : JsString} (wellFormed : isWellFormedText first = true)
    (whole : isWellFormedText (first ++ second) = true) : isWellFormedText second = true := by
  fun_induction isWellFormedText first with
  | case1 => exact whole
  | case2 code =>
      cases second with
      | nil => rfl
      | cons next rest =>
          simp only [isSurrogate, Bool.not_eq_true', Bool.or_eq_false_iff] at wellFormed
          rw [List.singleton_append, isWellFormedText, wellFormed.1, Bool.false_and,
            if_neg Bool.false_ne_true, Bool.and_eq_true] at whole
          exact whole.2
  | case3 high low rest pair inductionHypothesis =>
      rw [List.cons_append, List.cons_append, isWellFormedText, if_pos pair] at whole
      exact inductionHypothesis wellFormed whole
  | case4 code next rest lone inductionHypothesis =>
      rw [Bool.and_eq_true] at wellFormed
      rw [List.cons_append, List.cons_append, isWellFormedText, if_neg lone,
        Bool.and_eq_true] at whole
      exact inductionHypothesis wellFormed.2 whole.2

/-- The parts of a well-formed text around a well-formed part of it. -/
theorem wellFormed_around {before part after : JsString} (partWellFormed : isWellFormedText part = true)
    (nonempty : part ≠ []) (wellFormed : isWellFormedText (before ++ part ++ after) = true) :
    isWellFormedText before = true ∧ isWellFormedText after = true := by
  obtain ⟨⟨start, partRest, shape, notLow⟩, -⟩ := part_starts partWellFormed nonempty
  rw [List.append_assoc] at wellFormed
  obtain ⟨beforeWellFormed, rest⟩ := wellFormed_of_append wellFormed (by
    intro code tail split
    rw [shape, List.cons_append] at split
    rw [← (List.cons.inj split).1]
    exact notLow)
  exact ⟨beforeWellFormed, wellFormed_right partWellFormed rest⟩

/-- The octets of a text are those of a well-formed text. -/
theorem exists_wellFormed (text : JsString) :
    ∃ other, isWellFormedText other = true ∧ encodeUtf8 other = encodeUtf8 text := by
  have unitCopy : ∀ code, ∃ copy, isSurrogate copy = false ∧ encodeUnit copy = encodeUnit code := by
    intro code
    cases plain : isSurrogate code with
    | false => exact ⟨code, plain, rfl⟩
    | true => exact ⟨replacement, by decide, by rw [encodeUnit, encodeUnit, plain]; rfl⟩
  have grow : ∀ copy other, isSurrogate copy = false → isWellFormedText other = true →
      isWellFormedText (copy :: other) = true ∧
        encodeUtf8 (copy :: other) = encodeUnit copy ++ encodeUtf8 other := by
    intro copy other plain wellFormed
    have alone : isWellFormedText [copy] = true := by rw [isWellFormedText, plain]; rfl
    exact ⟨isWellFormedText_cons plain wellFormed, encodeUtf8_append alone other⟩
  fun_induction encodeUtf8 text with
  | case1 => exact ⟨[], rfl, rfl⟩
  | case2 code =>
      obtain ⟨copy, plain, octets⟩ := unitCopy code
      obtain ⟨wellFormed, written⟩ := grow copy [] plain rfl
      exact ⟨[copy], wellFormed, by rw [written, octets, encodeUtf8, List.append_nil]⟩
  | case3 high low rest pair inductionHypothesis =>
      obtain ⟨other, wellFormed, octets⟩ := inductionHypothesis
      refine ⟨high :: low :: other, ?_, ?_⟩
      · rw [isWellFormedText, if_pos pair]
        exact wellFormed
      · rw [encodeUtf8, if_pos pair, octets]
  | case4 code next rest lone inductionHypothesis =>
      obtain ⟨other, wellFormed, octets⟩ := inductionHypothesis
      obtain ⟨copy, plain, same⟩ := unitCopy code
      obtain ⟨copyWellFormed, written⟩ := grow copy other plain wellFormed
      exact ⟨copy :: other, copyWellFormed, by rw [written, octets, same]⟩

/-- A file that is read and written without a change holds a well-formed text. -/
theorem wellFormed_decodeUtf8 {octets : List Octet} (same : encodeUtf8 (decodeUtf8 octets) = octets) :
    isWellFormedText (decodeUtf8 octets) = true := by
  obtain ⟨other, wellFormed, written⟩ := exists_wellFormed (decodeUtf8 octets)
  rw [same] at written
  rw [← written, decodeUtf8_wellFormed wellFormed]
  exact wellFormed

end SpecAsCode.Text
