import SpecAsCode.Js.Spaced

/-!
# Printed texts

What holds of the text of a string and is kept by concatenation and by braces holds of every
printed value, with a gap and without one.
-/

namespace SpecAsCode.Js

/-- The code units with no meaning of their own, for a reader that looks for strings, objects
and fences. -/
def isPlainUnit (code : CodeUnit) : Bool :=
  code != unit '"' && code != unit '\x7b' && code != unit '\x7d' && code != unit '\\' &&
    code != unit '\u0060'

/-- A property of printed texts. -/
structure Printable (P : JsString → Prop) : Prop where
  nil : P []
  append : ∀ {first second}, P first → P second → P (first ++ second)
  plain : ∀ {code}, isPlainUnit code = true → P [code]
  quote : ∀ text, P (quote text)
  braces : ∀ {inner}, P inner → P (unit '\x7b' :: (inner ++ [unit '\x7d']))

variable {P : JsString → Prop}

theorem Printable.cons (printable : Printable P) {code : CodeUnit} {text : JsString}
    (plain : isPlainUnit code = true) (rest : P text) : P (code :: text) :=
  printable.append (printable.plain plain) rest

theorem Printable.word (printable : Printable P) {text : JsString}
    (plain : text.all isPlainUnit = true) : P text := by
  induction text with
  | nil => exact printable.nil
  | cons code text inductionHypothesis =>
      rw [List.all_cons, Bool.and_eq_true] at plain
      exact printable.cons plain.1 (inductionHypothesis plain.2)

theorem Printable.null (printable : Printable P) : P (js "null") :=
  printable.word (by decide)

theorem Printable.brackets (printable : Printable P) {inner : JsString} (inside : P inner) :
    P (unit '[' :: (inner ++ [unit ']'])) :=
  printable.cons (by decide) (printable.append inside (printable.plain (by decide)))

theorem Printable.commaJoin (printable : Printable P) {texts : List JsString}
    (each : ∀ text ∈ texts, P text) : P (commaJoin texts) := by
  fun_induction Js.commaJoin texts with
  | case1 => exact printable.nil
  | case2 text => exact each text List.mem_cons_self
  | case3 text next rest inductionHypothesis =>
      refine printable.append (each text List.mem_cons_self) (printable.cons (by decide) ?_)
      exact inductionHypothesis fun other member => each other (List.mem_cons_of_mem _ member)

theorem Printable.gapBreak (printable : Printable P) (margin : Nat) : P (gapBreak margin) := by
  refine printable.cons (by decide) (printable.word ?_)
  rw [List.all_replicate]
  split_ifs
  · rfl
  · decide

theorem Printable.gapJoin (printable : Printable P) (margin : Nat) {texts : List JsString}
    (each : ∀ text ∈ texts, P text) : P (gapJoin margin texts) := by
  fun_induction Js.gapJoin margin texts with
  | case1 => exact printable.nil
  | case2 text => exact each text List.mem_cons_self
  | case3 text next rest inductionHypothesis =>
      refine printable.append (each text List.mem_cons_self) (printable.cons (by decide) ?_)
      refine printable.append (printable.gapBreak margin) ?_
      exact inductionHypothesis fun other member => each other (List.mem_cons_of_mem _ member)

theorem Printable.gapBlock (printable : Printable P) (gap margin : Nat) {texts : List JsString}
    (each : ∀ text ∈ texts, P text) : P (gapBlock gap margin texts) := by
  rw [Js.gapBlock]
  split_ifs
  · exact printable.nil
  · exact printable.append (printable.gapBreak _)
      (printable.append (printable.gapJoin _ each) (printable.gapBreak _))

theorem isPlainUnit_of_isNumeralUnit {code : CodeUnit} (numeral : isNumeralUnit code = true) :
    isPlainUnit code = true := by
  have other : ∀ letter, isNumeralUnit letter = false → code ≠ letter := by
    rintro letter no rfl
    exact Bool.false_ne_true (no.symm.trans numeral)
  simp only [isPlainUnit, Bool.and_eq_true, bne_iff_ne, ne_eq]
  exact ⟨⟨⟨⟨other _ (by decide), other _ (by decide)⟩, other _ (by decide)⟩,
    other _ (by decide)⟩, other _ (by decide)⟩

theorem Printable.number (printable : Printable P) (value : JsNumber) :
    P (JsValue.number value).stringify := by
  cases value with
  | nan => exact printable.null
  | infinity => exact printable.null
  | finite value =>
      obtain ⟨first, rest, shape, start, numeral⟩ := value.name.text_shape
      have plain : isPlainUnit first = true := by
        rcases start with rfl | digit
        · decide
        · exact isPlainUnit_of_isNumeralUnit (by simp [isNumeralUnit, digit])
      rw [JsValue.stringify, shape]
      refine printable.cons plain (printable.word (List.all_eq_true.mpr fun code member => ?_))
      exact isPlainUnit_of_isNumeralUnit (numeral code member)

theorem Printable.bool (printable : Printable P) (value : Bool) :
    P (JsValue.bool value).stringify := by
  cases value with
  | true => exact printable.word (by decide)
  | false => exact printable.word (by decide)

/-! ## Compact texts -/

theorem eachItem {items : List JsValue} (each : ∀ item ∈ items, P item.stringify) :
    ∀ text ∈ stringifyItems items, P text := by
  induction items with
  | nil => simp [stringifyItems]
  | cons item rest inductionHypothesis =>
      intro text member
      rcases List.mem_cons.mp member with rfl | later
      · exact each item List.mem_cons_self
      · exact inductionHypothesis (fun other found => each other (List.mem_cons_of_mem _ found))
          text later

theorem Printable.eachMember (printable : Printable P) {members : Members}
    (each : ∀ member ∈ members, P member.2.stringify) : ∀ text ∈ stringifyMembers members, P text := by
  induction members with
  | nil => simp [stringifyMembers]
  | cons member rest inductionHypothesis =>
      obtain ⟨key, value⟩ := member
      have later := inductionHypothesis fun other found => each other (List.mem_cons_of_mem _ found)
      rw [stringifyMembers]
      split_ifs
      · exact later
      · intro text member
        rcases List.mem_cons.mp member with rfl | behind
        · exact printable.append (printable.quote key) (printable.cons (by decide)
            (each (key, value) List.mem_cons_self))
        · exact later text behind

/-- A printable property holds of every compact text. -/
theorem Printable.stringify (printable : Printable P) (value : JsValue) : P value.stringify := by
  induction value using JsValue.induction with
  | undefined => exact printable.null
  | null => exact printable.null
  | bool value => exact printable.bool value
  | number value => exact printable.number value
  | string value => exact printable.quote value
  | array items inductionHypothesis =>
      exact printable.brackets (printable.commaJoin (eachItem inductionHypothesis))
  | object members inductionHypothesis =>
      exact printable.braces (printable.commaJoin (printable.eachMember inductionHypothesis))

/-- What stands between the braces of an object. -/
theorem Printable.members (printable : Printable P) (members : Members) :
    P (Js.commaJoin (stringifyMembers members)) :=
  printable.commaJoin (printable.eachMember fun member _ => printable.stringify member.2)

/-! ## Texts with a gap -/

section Gap

variable (gap : Nat)

theorem eachSpacedItem {margin : Nat} {items : List JsValue}
    (each : ∀ item ∈ items, P (item.spaced gap margin)) :
    ∀ text ∈ spacedItems gap margin items, P text := by
  induction items with
  | nil => simp [spacedItems]
  | cons item rest inductionHypothesis =>
      intro text member
      rcases List.mem_cons.mp member with rfl | later
      · exact each item List.mem_cons_self
      · exact inductionHypothesis (fun other found => each other (List.mem_cons_of_mem _ found))
          text later

theorem Printable.eachSpacedMember (printable : Printable P) {margin : Nat} {members : Members}
    (each : ∀ member ∈ members, P (member.2.spaced gap margin)) :
    ∀ text ∈ spacedMembers gap margin members, P text := by
  induction members with
  | nil => simp [spacedMembers]
  | cons member rest inductionHypothesis =>
      obtain ⟨key, value⟩ := member
      have later := inductionHypothesis fun other found => each other (List.mem_cons_of_mem _ found)
      rw [spacedMembers]
      split_ifs
      · exact later
      · intro text member
        rcases List.mem_cons.mp member with rfl | behind
        · exact printable.append (printable.quote key) (printable.cons (by decide)
            (printable.cons (by decide) (each (key, value) List.mem_cons_self)))
        · exact later text behind

/-- A printable property holds of every text with a gap. -/
theorem Printable.spaced (printable : Printable P) (value : JsValue) :
    ∀ margin, P (value.spaced gap margin) := by
  induction value using JsValue.induction with
  | undefined => exact fun _ => printable.null
  | null => exact fun _ => printable.null
  | bool value => exact fun _ => printable.bool value
  | number value => exact fun _ => printable.number value
  | string value => exact fun _ => printable.quote value
  | array items inductionHypothesis =>
      exact fun margin => printable.brackets (printable.gapBlock gap margin
        (eachSpacedItem gap fun item member => inductionHypothesis item member _))
  | object members inductionHypothesis =>
      exact fun margin => printable.braces (printable.gapBlock gap margin
        (printable.eachSpacedMember gap fun member found => inductionHypothesis member found _))

/-- What stands between the braces of an object that is printed with a gap. -/
theorem Printable.spacedBlock (printable : Printable P) (margin : Nat) (members : Members) :
    P (Js.gapBlock gap margin (spacedMembers gap (margin + gap) members)) :=
  printable.gapBlock gap margin
    (printable.eachSpacedMember gap fun member _ => printable.spaced gap member.2 _)

end Gap

end SpecAsCode.Js
