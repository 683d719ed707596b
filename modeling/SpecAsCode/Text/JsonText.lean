import SpecAsCode.Text.Utf8

/-!
# The texts `JSON.stringify` prints

A printed text is well-formed and has no control characters, so it is one line of a
file and is read back from its octets.
-/

namespace SpecAsCode.Text

open SpecAsCode.Js

/-- A well-formed text without control characters. -/
structure Printed (text : JsString) : Prop where
  wellFormed : isWellFormedText text = true
  printable : ∀ code ∈ text, 32 ≤ code.val

/-- A code unit that may stand anywhere in a printed text. -/
def isPlain (code : CodeUnit) : Bool :=
  32 ≤ code.val && !isSurrogate code

theorem Printed.nil : Printed [] :=
  ⟨rfl, by simp⟩

theorem Printed.cons {code : CodeUnit} (plain : isPlain code = true) {text : JsString}
    (printed : Printed text) : Printed (code :: text) := by
  simp only [isPlain, Bool.and_eq_true, decide_eq_true_eq, Bool.not_eq_true'] at plain
  exact ⟨isWellFormedText_cons plain.2 printed.wellFormed,
    List.forall_mem_cons.mpr ⟨plain.1, printed.printable⟩⟩

theorem Printed.append {first second : JsString} (printed : Printed first)
    (otherPrinted : Printed second) : Printed (first ++ second) :=
  ⟨isWellFormedText_append printed.wellFormed otherPrinted.wellFormed,
    List.forall_mem_append.mpr ⟨printed.printable, otherPrinted.printable⟩⟩

theorem printed_of_isPlain {text : JsString} (plain : ∀ code ∈ text, isPlain code = true) :
    Printed text := by
  induction text with
  | nil => exact .nil
  | cons code rest inductionHypothesis =>
      exact .cons (plain code List.mem_cons_self)
        (inductionHypothesis fun other member => plain other (List.mem_cons_of_mem _ member))

theorem printed_word (text : JsString) (plain : text.all isPlain = true) : Printed text :=
  printed_of_isPlain (List.all_eq_true.mp plain)

theorem isPlain_hexUnit : ∀ digit < 16, isPlain (hexUnit digit) = true := by
  decide

private theorem printed_unicodeEscape (code : CodeUnit) : Printed (unicodeEscape code) := by
  have bound := code.isLt
  refine printed_of_isPlain ?_
  intro other member
  simp only [unicodeEscape, List.mem_cons, List.not_mem_nil, or_false] at member
  rcases member with rfl | rfl | rfl | rfl | rfl | rfl
  · decide
  · decide
  · exact isPlain_hexUnit _ (by omega)
  · exact isPlain_hexUnit _ (by omega)
  · exact isPlain_hexUnit _ (by omega)
  · exact isPlain_hexUnit _ (by omega)

private theorem isPlain_shortEscape {code letter : CodeUnit}
    (short : shortEscape code = some letter) : isPlain letter = true := by
  rw [shortEscape] at short
  split_ifs at short <;> cases short <;> decide

theorem printed_quoteUnit (code : CodeUnit) : Printed (quoteUnit code) := by
  rw [quoteUnit]
  cases short : shortEscape code with
  | some letter => exact .cons (by decide) (.cons (isPlain_shortEscape short) .nil)
  | none =>
      by_cases escaped : code.val < 32 ∨ isHighSurrogate code ∨ isLowSurrogate code
      · simp only [if_pos escaped]
        exact printed_unicodeEscape code
      · simp only [if_neg escaped]
        simp only [not_or, Bool.not_eq_true, not_lt] at escaped
        refine .cons ?_ .nil
        simp [isPlain, isSurrogate, escaped]

theorem printed_quoteUnits (text : JsString) : Printed (quoteUnits text) := by
  fun_induction quoteUnits text with
  | case1 => exact .nil
  | case2 code => exact printed_quoteUnit code
  | case3 first second rest pair inductionHypothesis =>
      have units := pair
      simp only [isHighSurrogate, isLowSurrogate, Bool.and_eq_true, decide_eq_true_eq] at units
      refine ⟨?_, ?_⟩
      · rw [isWellFormedText, if_pos pair]
        exact inductionHypothesis.wellFormed
      · exact List.forall_mem_cons.mpr ⟨by omega,
          List.forall_mem_cons.mpr ⟨by omega, inductionHypothesis.printable⟩⟩
  | case4 first second rest lone inductionHypothesis =>
      exact (printed_quoteUnit first).append inductionHypothesis

theorem printed_quote (text : JsString) : Printed (quote text) :=
  .cons (by decide) ((printed_quoteUnits text).append (.cons (by decide) .nil))

theorem printed_commaJoin {texts : List JsString} (printed : ∀ text ∈ texts, Printed text) :
    Printed (commaJoin texts) := by
  fun_induction commaJoin texts with
  | case1 => exact .nil
  | case2 text => exact printed text List.mem_cons_self
  | case3 text next rest inductionHypothesis =>
      exact (printed text List.mem_cons_self).append (.cons (by decide)
        (inductionHypothesis fun other member => printed other (List.mem_cons_of_mem _ member)))

theorem isPlain_of_isNumeralUnit {code : CodeUnit} (numeral : isNumeralUnit code = true) :
    isPlain code = true := by
  simp only [isNumeralUnit, Bool.or_eq_true, beq_iff_eq] at numeral
  rcases numeral with ((((digit | rfl) | rfl) | rfl) | rfl) | rfl
  · rw [digitOf] at digit
    split at digit
    next bounds =>
      simp only [isPlain, isSurrogate, isHighSurrogate, isLowSurrogate, Bool.and_eq_true,
        decide_eq_true_eq, Bool.not_eq_true', Bool.or_eq_false_iff, Bool.and_eq_false_iff,
        decide_eq_false_iff_not]
      omega
    next => cases digit
  all_goals decide

theorem printed_text (decimal : Decimal) : Printed decimal.text := by
  obtain ⟨first, rest, shape, start, units⟩ := decimal.text_shape
  rw [shape]
  have numeral : isNumeralUnit first = true := by
    rcases start with rfl | digit
    · decide
    · simp [isNumeralUnit, digit]
  exact .cons (isPlain_of_isNumeralUnit numeral)
    (printed_of_isPlain fun code member => isPlain_of_isNumeralUnit (units code member))

/-- The text of every value is printed text. -/
theorem printed_stringify (value : JsValue) : Printed value.stringify := by
  induction value using JsValue.induction with
  | undefined => exact printed_word (js "null") (by decide)
  | null => exact printed_word (js "null") (by decide)
  | bool value =>
      cases value with
      | true => exact printed_word (js "true") (by decide)
      | false => exact printed_word (js "false") (by decide)
  | number value =>
      cases value with
      | finite value => exact printed_text value.name
      | nan => exact printed_word (js "null") (by decide)
      | infinity => exact printed_word (js "null") (by decide)
  | string value => exact printed_quote value
  | array items inductionHypothesis =>
      have texts : ∀ text ∈ stringifyItems items, Printed text := by
        induction items with
        | nil => simp [stringifyItems]
        | cons item rest itemsHypothesis =>
            rw [stringifyItems]
            exact List.forall_mem_cons.mpr ⟨inductionHypothesis item List.mem_cons_self,
              itemsHypothesis fun other member =>
                inductionHypothesis other (List.mem_cons_of_mem _ member)⟩
      exact .cons (by decide) ((printed_commaJoin texts).append (.cons (by decide) .nil))
  | object members inductionHypothesis =>
      have texts : ∀ text ∈ stringifyMembers members, Printed text := by
        induction members with
        | nil => simp [stringifyMembers]
        | cons member rest membersHypothesis =>
            have later := membersHypothesis fun other found =>
              inductionHypothesis other (List.mem_cons_of_mem _ found)
            rw [stringifyMembers]
            split
            · exact later
            · exact List.forall_mem_cons.mpr ⟨(printed_quote member.1).append
                (.cons (by decide) (inductionHypothesis member List.mem_cons_self)), later⟩
      exact .cons (by decide) ((printed_commaJoin texts).append (.cons (by decide) .nil))

end SpecAsCode.Text
