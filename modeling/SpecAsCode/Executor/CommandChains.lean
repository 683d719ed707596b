import SpecAsCode.Executor.Commands
import SpecAsCode.Js.RegexGuards
import SpecAsCode.Js.Trim

/-!
# Chains of commands

What the policy makes of two commands with an operator of the shell between them.
-/

namespace SpecAsCode.Executor

open SpecAsCode.Js
open SpecAsCode.Js.Regex (all any alt literal words spaces optional pair before after Branch
  LeftGuard RightGuard Joined Phrase IsGap Fits)

/-! ## Chains -/

inductive ShellOperator where
  | and
  | or
  | sequel

def ShellOperator.text : ShellOperator → JsString
  | .and => js "&&"
  | .or => js "||"
  | .sequel => js ";"

/-- Two command lines and an operator between them, with a blank on each side. -/
def chain (first : JsString) (operator : ShellOperator) (second : JsString) : JsString :=
  first ++ (js " " ++ operator.text ++ js " ") ++ second

def isOperatorUnit (code : CodeUnit) : Bool :=
  code == unit '&' || code == unit '|' || code == unit ';'

theorem isOperatorUnit_text (operator : ShellOperator) :
    ∀ code ∈ operator.text, isOperatorUnit code = true ∧ isSpace code = false := by
  have checked :
      operator.text.all (fun code => isOperatorUnit code && !isSpace code) = true := by
    cases operator <;> decide
  intro code member
  simpa using List.all_eq_true.mp checked code member

theorem operator_text_ne_nil (operator : ShellOperator) : operator.text ≠ [] := by
  cases operator <;> decide

theorem not_isOperatorUnit_of_isSpace {code : CodeUnit} (space : isSpace code = true) :
    isOperatorUnit code = false := by
  rw [isOperatorUnit, Bool.or_eq_false_iff, Bool.or_eq_false_iff]
  refine ⟨⟨?_, ?_⟩, ?_⟩ <;>
    · refine beq_eq_false_iff_ne.mpr ?_
      rintro rfl
      exact absurd space (by decide)

/-! ## Trimmed texts -/

/-- A text that neither begins nor ends with white space. -/
structure Solid (text : JsString) : Prop where
  first : ∀ code, text.head? = some code → isSpace code = false
  last : ∀ code, text.getLast? = some code → isSpace code = false

theorem isGap_append {first second : JsString} (firstGap : IsGap first) (secondGap : IsGap second) :
    IsGap (first ++ second) := by
  intro code member
  rcases List.mem_append.mp member with early | late
  · exact firstGap code early
  · exact secondGap code late

theorem isGap_blank : IsGap (js " ") := by
  intro code member
  rw [List.mem_singleton.mp member]
  decide

theorem exists_trim (text : JsString) :
    ∃ lead trail, text = lead ++ trim text ++ trail ∧ IsGap lead ∧ IsGap trail ∧
      Solid (trim text) := by
  obtain ⟨lead, trail, shape, leads, trails, first, last⟩ := Js.exists_trim text
  exact ⟨lead, trail, shape, leads, trails, first, last⟩

/-- White space behind a text with none at its ends, unless the text is empty. -/
theorem exists_front (text : JsString) :
    ∃ outer gap, text ++ js " " = outer ++ trim text ++ gap ∧ IsGap outer ∧ IsGap gap ∧
      (trim text = [] ↔ gap = []) := by
  obtain ⟨lead, trail, shape, leads, trails, -⟩ := exists_trim text
  by_cases empty : trim text = []
  · refine ⟨lead ++ trail ++ js " ", [], ?_,
      isGap_append (isGap_append leads trails) isGap_blank, nofun, iff_of_true empty rfl⟩
    rw [empty, List.append_nil, List.append_nil]
    rw [empty, List.append_nil] at shape
    rw [← shape]
  · refine ⟨lead, trail ++ js " ", ?_, leads, isGap_append trails isGap_blank,
      iff_of_false empty (by simp [js])⟩
    rw [← List.append_assoc, ← shape]

theorem exists_back (text : JsString) :
    ∃ gap outer, js " " ++ text = gap ++ trim text ++ outer ∧ IsGap gap ∧ IsGap outer ∧
      (trim text = [] ↔ gap = []) := by
  obtain ⟨lead, trail, shape, leads, trails, -⟩ := exists_trim text
  by_cases empty : trim text = []
  · refine ⟨[], js " " ++ (lead ++ trail), ?_, nofun,
      isGap_append isGap_blank (isGap_append leads trails), iff_of_true empty rfl⟩
    rw [empty, List.append_nil] at shape
    rw [empty, List.append_nil, List.nil_append, ← shape]
  · refine ⟨js " " ++ lead, trail, ?_, isGap_append isGap_blank leads, trails,
      iff_of_false empty (by simp [js])⟩
    rw [List.append_assoc, List.append_assoc, ← List.append_assoc lead, ← shape]

/-- A trimmed chain is made of its trimmed commands. -/
theorem joined_chain (first : JsString) (operator : ShellOperator) (second : JsString) :
    Joined isOperatorUnit (trim (chain first operator second)) (trim first) (trim second) := by
  obtain ⟨-, -, -, -, -, firstSolid⟩ := exists_trim first
  obtain ⟨-, -, -, -, -, secondSolid⟩ := exists_trim second
  obtain ⟨lead, gap, front, leads, isGap, firstGap⟩ := exists_front first
  obtain ⟨behind, trail, back, isBehind, trails, secondGap⟩ := exists_back second
  have marked := operator_text_ne_nil operator
  have isMark := isOperatorUnit_text operator
  have shape : chain first operator second =
      lead ++ (trim first ++ gap ++ operator.text ++ (behind ++ trim second)) ++ trail := by
    calc chain first operator second
        = (first ++ js " ") ++ operator.text ++ (js " " ++ second) := by simp [chain]
      _ = _ := by rw [front, back]; simp
  have solid : Solid (trim first ++ gap ++ operator.text ++ (behind ++ trim second)) := by
    constructor
    · intro code head
      by_cases empty : trim first = []
      · rw [empty, firstGap.mp empty, List.nil_append, List.nil_append,
          List.head?_append_of_ne_nil _ marked] at head
        exact (isMark code (List.mem_of_head? head)).2
      · rw [List.append_assoc, List.append_assoc, List.head?_append_of_ne_nil _ empty] at head
        exact firstSolid.first code head
    · intro code last
      by_cases empty : trim second = []
      · rw [empty, secondGap.mp empty, List.append_nil, List.append_nil,
          List.getLast?_append_of_ne_nil _ marked] at last
        exact (isMark code (List.mem_of_getLast? last)).2
      · rw [← List.append_assoc, List.getLast?_append_of_ne_nil _ empty] at last
        exact secondSolid.last code last
  rw [shape, trim_between leads solid.first solid.last trails]
  exact ⟨gap, operator.text, behind, rfl, isGap, fun nonempty => firstGap.not.mp nonempty, isBehind,
    fun nonempty => secondGap.not.mp nonempty, marked, isMark⟩

/-! ## Patterns -/

/-- A test is passed by a line when it is passed by the first command, or by the second one behind a
blank, and then by the second one itself. -/
structure Composes (test : JsString → Bool) : Prop where
  joined : ∀ {line first second}, Joined isOperatorUnit line first second →
    test line = (test first || test (unit ' ' :: second))
  behind : ∀ {second}, test (unit ' ' :: second) = true → test second = true

/-- Whatever the expression matches is a phrase. -/
def Clear (regex : Regex) : Prop :=
  ∀ pre mid post, regex.Fits pre mid post → Phrase isOperatorUnit mid

/-- Whatever the expression matches goes on within a command. -/
def Unmarked (regex : Regex) : Prop :=
  ∀ pre mid post, regex.Fits pre mid post → ∀ code ∈ mid, isOperatorUnit code = false

theorem composes_branch (branch : Branch) (isPlain : (all branch.core).plain = true)
    (clear : Clear (all branch.core)) : Composes branch.regex.test := by
  have phrased : ∀ mid, (all branch.core).Matches mid → Phrase isOperatorUnit mid :=
    fun mid core => clear [] mid [] core
  constructor
  · intro line first second joined
    rw [Bool.eq_iff_iff, Bool.or_eq_true, Branch.test_iff isPlain, Branch.test_iff isPlain,
      Branch.test_iff isPlain]
    exact Branch.occurs_joined phrased joined
  · intro second found
    rw [Branch.test_iff isPlain] at found ⊢
    exact Branch.occurs_of_behind phrased found

theorem test_behind (branch : Branch) (isPlain : (all branch.core).plain = true)
    (anywhere : branch.left ≠ .start) {text : JsString} (found : branch.regex.test text = true) :
    branch.regex.test (unit ' ' :: text) = true := by
  rw [Branch.test_iff isPlain] at found ⊢
  exact Branch.occurs_behind anywhere found

theorem composes_alt {first second : Regex} (firstComposes : Composes first.test)
    (secondComposes : Composes second.test) : Composes (alt first second).test := by
  constructor
  · intro line one two joined
    rw [Regex.test_alt, Regex.test_alt, Regex.test_alt, firstComposes.joined joined,
      secondComposes.joined joined]
    ac_rfl
  · intro behind found
    rw [Regex.test_alt, Bool.or_eq_true] at found ⊢
    exact found.imp firstComposes.behind secondComposes.behind

/-! ### Parts of patterns -/

/-- A word without white space and operators. -/
def isPhrase (word : JsString) : Bool :=
  !word.isEmpty && word.all fun code => !isSpace code && !isOperatorUnit code

theorem phrase_of_isPhrase {word : JsString} (checked : isPhrase word = true) :
    Phrase isOperatorUnit word := by
  rw [isPhrase, Bool.and_eq_true, List.all_eq_true] at checked
  have each : ∀ code ∈ word, isSpace code = false ∧ isOperatorUnit code = false := by
    intro code member
    simpa using checked.2 code member
  refine ⟨by simpa using checked.1, fun code first => ?_, fun code last => ?_, fun code member =>
    (each code member).2⟩
  · exact (each code (List.mem_of_head? first)).1
  · exact (each code (List.mem_of_getLast? last)).1

theorem fits_literal {word pre mid post : JsString}
    (fits : (literal word).Fits pre mid post) : mid = word := by
  induction word generalizing pre mid with
  | nil => exact fits
  | cons code word inductionHypothesis =>
      obtain ⟨one, two, rfl, ⟨other, rfl, same⟩, later⟩ := fits
      rw [inductionHypothesis later, eq_of_beq same]
      rfl

theorem clear_literal {word : JsString} (checked : isPhrase word = true) : Clear (literal word) := by
  intro pre mid post fits
  rw [fits_literal fits]
  exact phrase_of_isPhrase checked

theorem clear_alt {first second : Regex} (firstClear : Clear first) (secondClear : Clear second) :
    Clear (alt first second) := by
  rintro pre mid post (here | there)
  · exact firstClear pre mid post here
  · exact secondClear pre mid post there

theorem clear_any {parts : List Regex} (clear : ∀ part ∈ parts, Clear part) : Clear (any parts) := by
  induction parts with
  | nil =>
      rintro pre mid post ⟨code, -, never⟩
      cases never
  | cons part parts inductionHypothesis =>
      exact clear_alt (clear part List.mem_cons_self)
        (inductionHypothesis fun other later => clear other (List.mem_cons_of_mem _ later))

theorem clear_words {texts : List String}
    (checked : (texts.all fun text => isPhrase (js text)) = true) : Clear (words texts) := by
  refine clear_any fun part member => ?_
  obtain ⟨text, among, rfl⟩ := List.mem_map.mp member
  exact clear_literal (List.all_eq_true.mp checked text among)

theorem Clear.unmarked {regex : Regex} (clear : Clear regex) : Unmarked regex :=
  fun pre mid post fits => (clear pre mid post fits).unmarked

theorem unmarked_one {allowed : CodeUnit → Bool}
    (checked : (!allowed (unit '&') && !allowed (unit '|') && !allowed (unit ';')) = true) :
    Unmarked (.one allowed) := by
  rintro pre mid post ⟨code, rfl, isAllowed⟩ other member
  rw [List.mem_singleton.mp member]
  by_contra isMark
  rw [Bool.not_eq_false, isOperatorUnit] at isMark
  simp only [Bool.or_eq_true, beq_iff_eq] at isMark
  rcases isMark with (rfl | rfl) | rfl <;> simp [isAllowed] at checked

theorem unmarked_epsilon : Unmarked .epsilon := by
  rintro pre mid post rfl code member
  cases member

theorem unmarked_seq {first second : Regex} (firstUnmarked : Unmarked first)
    (secondUnmarked : Unmarked second) : Unmarked (.seq first second) := by
  rintro pre mid post ⟨one, two, rfl, here, there⟩ code member
  rcases List.mem_append.mp member with early | late
  · exact firstUnmarked _ _ _ here code early
  · exact secondUnmarked _ _ _ there code late

theorem unmarked_alt {first second : Regex} (firstUnmarked : Unmarked first)
    (secondUnmarked : Unmarked second) : Unmarked (alt first second) := by
  rintro pre mid post (here | there)
  · exact firstUnmarked _ _ _ here
  · exact secondUnmarked _ _ _ there

theorem unmarked_star {inner : Regex} (unmarked : Unmarked inner) : Unmarked (.star inner) := by
  intro pre mid post fits
  induction fits with
  | nil pre post => exact nofun
  | cons nonempty here later inductionHypothesis =>
      intro code member
      rcases List.mem_append.mp member with early | late
      · exact unmarked _ _ _ here code early
      · exact inductionHypothesis code late

theorem unmarked_all {parts : List Regex} (unmarked : ∀ part ∈ parts, Unmarked part) :
    Unmarked (all parts) := by
  induction parts with
  | nil => exact unmarked_epsilon
  | cons part parts inductionHypothesis =>
      exact unmarked_seq (unmarked part List.mem_cons_self)
        (inductionHypothesis fun other later => unmarked other (List.mem_cons_of_mem _ later))

theorem unmarked_spaces : Unmarked spaces := by
  have space : Unmarked (.one isSpace) := unmarked_one (by decide)
  exact unmarked_seq space (unmarked_star space)

theorem unmarked_optionalRun : Unmarked optionalRun :=
  unmarked_alt (unmarked_seq (clear_literal (by decide)).unmarked unmarked_spaces) unmarked_epsilon

theorem clear_single {part : Regex} (clear : Clear part) : Clear (all [part]) := by
  rintro pre mid post ⟨one, two, rfl, here, rfl⟩
  rw [List.append_nil]
  exact clear _ _ _ here

/-- What begins and ends with phrases is one when no operator is between them. -/
theorem clear_between (middle : List Regex) {first last : Regex} (firstClear : Clear first)
    (unmarked : ∀ part ∈ middle, Unmarked part) (lastClear : Clear last) :
    Clear (all (first :: (middle ++ [last]))) := by
  rintro pre mid post ⟨one, rest, rfl, here, later⟩
  obtain ⟨two, three, rfl, between, there⟩ := Regex.fits_all_append.mp later
  have front := firstClear _ _ _ here
  have back := clear_single lastClear _ _ _ there
  refine ⟨by simp [front.nonempty], fun code head => ?_, fun code final => ?_, fun code member => ?_⟩
  · rw [List.head?_append_of_ne_nil _ front.nonempty] at head
    exact front.first code head
  · rw [← List.append_assoc, List.getLast?_append_of_ne_nil _ back.nonempty] at final
    exact back.last code final
  · rcases List.mem_append.mp member with early | member
    · exact front.unmarked code early
    · rcases List.mem_append.mp member with inner | late
      · exact unmarked_all unmarked _ _ _ between code inner
      · exact back.unmarked code late

theorem clear_pair {first second : String}
    (checked : (isPhrase (js first) && isPhrase (js second)) = true) : Clear (pair first second) := by
  rw [Bool.and_eq_true] at checked
  exact clear_between [spaces] (clear_literal checked.1)
    (List.forall_mem_singleton.mpr unmarked_spaces) (clear_literal checked.2)

/-! ### The table -/

theorem unmarked_gap : ∀ part ∈ [spaces], Unmarked part :=
  List.forall_mem_singleton.mpr unmarked_spaces

theorem clear_packageManager : Clear packageManager :=
  clear_words (by decide)

/-- A script of a package manager, with or without `run`. -/
theorem composes_script {script : Regex} (clear : Clear script)
    (isPlain : (all [packageManager, spaces, optionalRun, script]).plain = true) :
    Composes (all [.start, packageManager, spaces, optionalRun, script, after]).test :=
  composes_branch ⟨.start, [packageManager, spaces, optionalRun, script], .blank⟩ isPlain
    (clear_between [spaces, optionalRun] clear_packageManager
      (List.forall_mem_cons.mpr ⟨unmarked_spaces, List.forall_mem_singleton.mpr unmarked_optionalRun⟩)
      clear)

theorem composes_destructive : Composes destructivePattern.test := by
  refine composes_branch ⟨.blank, [_], .blank⟩ (by decide) (clear_single (clear_any ?_))
  have letters : Unmarked (.star Regex.letter) := unmarked_star (unmarked_one (by decide))
  have flags : ∀ flag : String, isPhrase (js flag) = true →
      ∀ part ∈ [Regex.star Regex.letter, literal (js flag), Regex.star Regex.letter],
        Unmarked part := by
    intro flag checked
    simp only [List.forall_mem_cons, List.not_mem_nil, false_imp_iff, implies_true, and_true]
    exact ⟨letters, (clear_literal checked).unmarked, letters⟩
  simp only [List.forall_mem_cons, List.not_mem_nil, false_imp_iff, implies_true, and_true]
  refine ⟨?_, clear_literal (by decide), ?_, ?_, ?_, clear_literal (by decide),
    clear_literal (by decide)⟩
  · refine clear_between [spaces] (clear_literal (by decide)) unmarked_gap
      (clear_alt ?_ ?_)
    · exact clear_between _ (clear_literal (by decide)) (flags "r" (by decide))
        (clear_literal (by decide))
    · exact clear_between _ (clear_literal (by decide)) (flags "f" (by decide))
        (clear_literal (by decide))
  · exact clear_between [spaces] (clear_literal (by decide)) unmarked_gap
      (clear_literal (by decide))
  · refine clear_between [spaces] (clear_literal (by decide)) unmarked_gap
      (clear_any ?_)
    simp only [List.forall_mem_cons, List.not_mem_nil, false_imp_iff, implies_true, and_true]
    exact ⟨clear_pair (by decide), clear_pair (by decide), clear_pair (by decide)⟩
  · exact clear_between [spaces] (clear_literal (by decide)) unmarked_gap
      (clear_words (by decide))

/-- The pattern is not tied to the start. -/
theorem destructive_behind {text : JsString}
    (found : destructivePattern.test (text.map Verifier.lowerAscii) = true) :
    destructivePattern.test ((unit ' ' :: text).map Verifier.lowerAscii) = true :=
  test_behind ⟨.blank, [_], .blank⟩ (by decide) nofun found

theorem composes_gitPush : Composes gitPushPattern.test :=
  composes_branch ⟨.start, [pair "git" "push"], .blank⟩ (by decide)
    (clear_single (clear_pair (by decide)))

theorem composes_publish : Composes publishPattern.test := by
  refine composes_alt ?_ ?_
  · exact composes_branch ⟨.blank, [packageManager, spaces, _], .blank⟩ (by decide)
      (clear_between [spaces] clear_packageManager unmarked_gap
        (clear_words (by decide)))
  · refine composes_branch ⟨.blank, [_], .blank⟩ (by decide) (clear_single (clear_any ?_))
    simp only [List.forall_mem_cons, List.not_mem_nil, false_imp_iff, implies_true, and_true]
    exact ⟨clear_pair (by decide), clear_pair (by decide)⟩

theorem composes_deployment : Composes deploymentPattern.test := by
  refine composes_branch ⟨.blank, [_], .blank⟩ (by decide) (clear_single (clear_any ?_))
  simp only [List.forall_mem_cons, List.not_mem_nil, false_imp_iff, implies_true, and_true]
  exact ⟨clear_literal (by decide), clear_literal (by decide), clear_pair (by decide),
    clear_pair (by decide), clear_pair (by decide), clear_pair (by decide)⟩

/-- Expressions without guards. -/
theorem composes_clear {regex : Regex} (clear : Clear regex) (isPlain : regex.plain = true) :
    Composes regex.test := by
  have single : Composes (all [regex]).test :=
    composes_branch ⟨.free, [regex], .free⟩ (by rw [all]; simp [Regex.plain, isPlain])
      (clear_single clear)
  have same : ∀ text, regex.test text = (all [regex]).test text := by
    intro text
    rw [Bool.eq_iff_iff, Regex.test_iff, Regex.test_iff]
    constructor
    · rintro ⟨pre, mid, post, rfl, fits⟩
      exact ⟨pre, mid, post, rfl, mid, [], (List.append_nil mid).symm, fits, rfl⟩
    · rintro ⟨pre, _, post, rfl, mid, _, rfl, fits, rfl⟩
      exact ⟨pre, mid, post, by rw [List.append_nil], fits⟩
  constructor
  · intro line first second joined
    rw [same, same, same]
    exact single.joined joined
  · intro second found
    rw [same] at found ⊢
    exact single.behind found

theorem composes_never : Composes (any []).test :=
  composes_clear (clear_any nofun) rfl

theorem composes_migration : Composes migrationPattern.test := by
  have migrate : Composes (all [before, literal (js "migrate"), after]).test :=
    composes_branch ⟨.blank, [_], .blank⟩ (by decide) (clear_single (clear_literal (by decide)))
  exact composes_alt migrate (composes_alt (composes_clear (clear_pair (by decide)) (by decide))
    (composes_alt (composes_clear (clear_pair (by decide)) (by decide))
      (composes_alt (composes_clear (clear_pair (by decide)) (by decide)) composes_never)))

theorem composes_packageInstall : Composes packageInstallPattern.test := by
  refine composes_alt ?_ (composes_alt ?_ (composes_alt ?_ composes_never))
  · exact composes_branch ⟨.start, [packageManager, spaces, _], .blank⟩ (by decide)
      (clear_between [spaces] clear_packageManager unmarked_gap
        (clear_words (by decide)))
  · exact composes_branch ⟨.start, [_, spaces, _], .blank⟩ (by decide)
      (clear_between [spaces] (clear_words (by decide)) unmarked_gap
        (clear_literal (by decide)))
  · exact composes_branch ⟨.start, [_, spaces, _], .blank⟩ (by decide)
      (clear_between [spaces] (clear_words (by decide)) unmarked_gap
        (clear_words (by decide)))

theorem composes_network : Composes networkPattern.test := by
  refine composes_alt ?_ (composes_clear ?_ (by decide))
  · exact composes_branch ⟨.start, [_], .blank⟩ (by decide) (clear_single (clear_words (by decide)))
  · have letter : Unmarked (optional (literal (js "s"))) :=
      unmarked_alt (clear_literal (by decide)).unmarked unmarked_epsilon
    exact clear_between [_] (clear_literal (by decide))
      (List.forall_mem_singleton.mpr letter) (clear_literal (by decide))

theorem composes_test : Composes testPattern.test := by
  refine composes_alt ?_ (composes_alt ?_ (composes_alt ?_ composes_never))
  · refine composes_branch ⟨.blank, [_], .blank⟩ (by decide) (clear_single (clear_any ?_))
    simp only [List.forall_mem_cons, List.not_mem_nil, false_imp_iff, implies_true, and_true]
    exact ⟨clear_pair (by decide), clear_literal (by decide), clear_literal (by decide),
      clear_literal (by decide), clear_literal (by decide), clear_pair (by decide),
      clear_pair (by decide), clear_pair (by decide)⟩
  · exact composes_script (clear_literal (by decide)) (by decide)
  · refine composes_branch
      ⟨.start, [packageManager, spaces, literal (js "run"), spaces, .star scriptName, _], .blank⟩
      (by decide) (clear_between
        [spaces, literal (js "run"), spaces, .star scriptName] clear_packageManager ?_
        (clear_literal (by decide)))
    simp only [List.forall_mem_cons, List.not_mem_nil, false_imp_iff, implies_true, and_true]
    exact ⟨unmarked_spaces, (clear_literal (by decide)).unmarked, unmarked_spaces,
      unmarked_star (unmarked_one (by decide))⟩

theorem composes_typecheck : Composes typecheckPattern.test := by
  refine composes_alt ?_ (composes_script (clear_words (by decide)) (by decide))
  refine composes_branch ⟨.blank, [_], .blank⟩ (by decide) (clear_single (clear_any ?_))
  simp only [List.forall_mem_cons, List.not_mem_nil, false_imp_iff, implies_true, and_true]
  exact ⟨clear_pair (by decide), clear_literal (by decide), clear_literal (by decide),
    clear_literal (by decide)⟩

theorem composes_build : Composes buildPattern.test := by
  refine composes_alt (composes_script (clear_literal (by decide)) (by decide)) ?_
  refine composes_branch ⟨.start, [_], .blank⟩ (by decide) (clear_single (clear_any ?_))
  simp only [List.forall_mem_cons, List.not_mem_nil, false_imp_iff, implies_true, and_true]
  exact ⟨clear_literal (by decide), clear_pair (by decide), clear_pair (by decide),
    clear_literal (by decide)⟩

theorem composes_lint : Composes lintPattern.test :=
  composes_alt
    (composes_branch ⟨.blank, [_], .blank⟩ (by decide) (clear_single (clear_words (by decide))))
    (composes_script (clear_literal (by decide)) (by decide))

theorem composes_inspect : Composes inspectPattern.test :=
  composes_branch ⟨.start, [_], .blank⟩ (by decide) (clear_single (clear_words (by decide)))

/-! ### Without regard to case -/

theorem isSpace_lowerAscii (code : CodeUnit) :
    isSpace (Verifier.lowerAscii code) = isSpace code := by
  rw [Verifier.lowerAscii]
  split_ifs with upper
  · rw [Bool.and_eq_true, decide_eq_true_iff, decide_eq_true_iff] at upper
    have lower : (code + 32).val = code.val + 32 := by
      rw [Fin.val_add]
      omega
    have notSpace : isSpace code = false := by
      rw [isSpace]
      simp
      omega
    have notSpaceLower : isSpace (code + 32) = false := by
      rw [isSpace, lower]
      simp
      omega
    rw [notSpace, notSpaceLower]
  · rfl

theorem isOperatorUnit_lowerAscii (code : CodeUnit) (isMark : isOperatorUnit code = true) :
    isOperatorUnit (Verifier.lowerAscii code) = true := by
  rw [isOperatorUnit] at isMark
  simp only [Bool.or_eq_true, beq_iff_eq] at isMark
  rcases isMark with (rfl | rfl) | rfl <;> decide

theorem isGap_lowerAscii {gap : JsString} (isGap : IsGap gap) :
    IsGap (gap.map Verifier.lowerAscii) := by
  intro code member
  obtain ⟨upper, among, rfl⟩ := List.mem_map.mp member
  rw [isSpace_lowerAscii]
  exact isGap upper among

theorem joined_lowerAscii {line first second : JsString}
    (joined : Joined isOperatorUnit line first second) :
    Joined isOperatorUnit (line.map Verifier.lowerAscii) (first.map Verifier.lowerAscii)
      (second.map Verifier.lowerAscii) := by
  obtain ⟨gap, mark, behind, rfl, isGap, gapped, isBehind, behindGapped, marked, isMark⟩ :=
    joined.parts
  refine ⟨gap.map Verifier.lowerAscii, mark.map Verifier.lowerAscii,
    behind.map Verifier.lowerAscii, by simp, isGap_lowerAscii isGap, ?_, isGap_lowerAscii isBehind,
    ?_, by simpa using marked, ?_⟩
  · simpa using gapped
  · simpa using behindGapped
  · intro code member
    obtain ⟨upper, among, rfl⟩ := List.mem_map.mp member
    exact ⟨isOperatorUnit_lowerAscii upper (isMark upper among).1,
      (isSpace_lowerAscii upper).trans (isMark upper among).2⟩

theorem composes_lowerAscii {test : JsString → Bool} (composes : Composes test) :
    Composes fun command => test (command.map Verifier.lowerAscii) := by
  constructor
  · intro line first second joined
    exact composes.joined (joined_lowerAscii joined)
  · intro second found
    exact composes.behind found

theorem composes_table : ∀ entry ∈ categoryPatterns, Composes entry.2 := by
  simp only [categoryPatterns, List.forall_mem_cons, List.not_mem_nil, false_imp_iff, implies_true,
    and_true]
  exact ⟨composes_lowerAscii composes_destructive, composes_gitPush, composes_publish,
    composes_deployment, composes_migration, composes_packageInstall, composes_network,
    composes_test, composes_typecheck, composes_build, composes_lint, composes_inspect⟩

/-! ## Categories of chains -/

/-- The entries of the table before a category. -/
def earlierThan (category : CommandCategory) : List (CommandCategory × (JsString → Bool)) :=
  categoryPatterns.takeWhile fun entry => entry.1 ≠ category

/-- A text is found by the pattern of an earlier category. -/
def Overtakes (text : JsString) (category : CommandCategory) : Prop :=
  ∃ entry ∈ earlierThan category, entry.2 text = true

/-- A text is found by the patterns of a category. -/
def FoundAs (text : JsString) (category : CommandCategory) : Prop :=
  ∀ entry ∈ categoryPatterns, entry.1 = category → entry.2 text = true

/-- The first key of a table whose entry passes a test. -/
def firstKey {Key Value : Type} (table : List (Key × Value)) (test : Key × Value → Bool)
    (otherwise : Key) : Key :=
  ((table.find? test).map Prod.fst).getD otherwise

theorem firstKey_known {Key Value : Type} (table : List (Key × Value)) (test : Key × Value → Bool)
    (otherwise : Key) :
    firstKey table test otherwise = otherwise ∨
      firstKey table test otherwise ∈ table.map Prod.fst := by
  rw [firstKey]
  cases found : table.find? test with
  | none => exact Or.inl rfl
  | some entry => exact Or.inr (List.mem_map_of_mem (List.mem_of_find?_eq_some found))

/-- A key is the first one when its entries pass the test and those before it do not. -/
theorem firstKey_eq_iff {Key Value : Type} [DecidableEq Key] {table : List (Key × Value)}
    (distinct : (table.map Prod.fst).Nodup) {otherwise key : Key}
    (absent : otherwise ∉ table.map Prod.fst)
    (known : key = otherwise ∨ key ∈ table.map Prod.fst) (test : Key × Value → Bool) :
    firstKey table test otherwise = key ↔
      (∀ entry ∈ table.takeWhile (fun entry => entry.1 ≠ key), test entry = false) ∧
        ∀ entry ∈ table, entry.1 = key → test entry = true := by
  induction table with
  | nil =>
      have same := known.resolve_right List.not_mem_nil
      exact iff_of_true same.symm ⟨nofun, nofun⟩
  | cons head table inductionHypothesis =>
      rw [List.map_cons, List.nodup_cons] at distinct
      rw [List.map_cons, List.mem_cons, not_or] at absent
      rw [List.map_cons, List.mem_cons] at known
      by_cases here : head.1 = key
      · subst here
        rw [List.takeWhile_cons_of_neg (by simp)]
        by_cases passes : test head = true
        · refine iff_of_true ?_ ⟨nofun, ?_⟩
          · rw [firstKey, List.find?_cons_of_pos passes]
            rfl
          · intro entry member same
            rcases List.mem_cons.mp member with rfl | later
            · exact passes
            · exact absurd (same ▸ List.mem_map_of_mem later) distinct.1
        · refine iff_of_false (fun same => ?_) fun holds =>
            passes (holds.2 head List.mem_cons_self rfl)
          rw [firstKey, List.find?_cons_of_neg passes] at same
          rcases firstKey_known table test otherwise with other | later
          · exact absent.1 (other.symm.trans same)
          · rw [firstKey, same] at later
            exact distinct.1 later
      · rw [List.takeWhile_cons_of_pos (by simpa using here), List.forall_mem_cons]
        by_cases passes : test head = true
        · refine iff_of_false (fun same => here ?_) fun holds => ?_
          · rwa [firstKey, List.find?_cons_of_pos passes] at same
          · rw [passes] at holds
            cases holds.1.1
        · have later := inductionHypothesis distinct.2 absent.2
            (known.imp_right fun either => either.resolve_left (Ne.symm here))
          rw [firstKey, List.find?_cons_of_neg passes, ← firstKey, later,
            and_iff_right (Bool.eq_false_iff.mpr passes)]
          refine and_congr_right fun _ => ?_
          rw [List.forall_mem_cons]
          exact (and_iff_right fun same => absurd same here).symm

theorem nodup_categories : (categoryPatterns.map Prod.fst).Nodup := by
  decide

theorem unknown_not_mem : CommandCategory.unknown ∉ categoryPatterns.map Prod.fst := by
  decide

theorem mem_categories (category : CommandCategory) :
    category = .unknown ∨ category ∈ categoryPatterns.map Prod.fst := by
  cases category <;> decide

theorem classifyCommand_eq_iff (command : JsString) (category : CommandCategory) :
    classifyCommand command = category ↔
      ¬ Overtakes (trim command) category ∧ FoundAs (trim command) category := by
  rw [classifyCommand, ← firstKey, firstKey_eq_iff nodup_categories unknown_not_mem
    (mem_categories category)]
  refine and_congr ?_ Iff.rfl
  rw [Overtakes, not_exists]
  simp only [not_and, Bool.not_eq_true]
  exact Iff.rfl

theorem foundAs_iff {entry : CommandCategory × (JsString → Bool)}
    (member : entry ∈ categoryPatterns) (text : JsString) :
    FoundAs text entry.1 ↔ entry.2 text = true := by
  refine ⟨fun found => found entry member rfl, fun found other among same => ?_⟩
  rwa [List.inj_on_of_nodup_map nodup_categories among member same]

section Chain

variable (first : JsString) (operator : ShellOperator) (second : JsString)

/-- What stands behind an operator: the second command behind a blank. -/
def behindOperator (second : JsString) : JsString :=
  unit ' ' :: trim second

theorem found_chain {entry : CommandCategory × (JsString → Bool)}
    (member : entry ∈ categoryPatterns) :
    entry.2 (trim (chain first operator second)) =
      (entry.2 (trim first) || entry.2 (behindOperator second)) :=
  (composes_table entry member).joined (joined_chain first operator second)

theorem overtakes_chain (category : CommandCategory) :
    Overtakes (trim (chain first operator second)) category ↔
      Overtakes (trim first) category ∨ Overtakes (behindOperator second) category := by
  constructor
  · rintro ⟨entry, earlier, found⟩
    rw [found_chain _ _ _ ((List.takeWhile_prefix _).subset earlier), Bool.or_eq_true] at found
    exact found.imp (fun here => ⟨entry, earlier, here⟩) fun there => ⟨entry, earlier, there⟩
  · rintro (⟨entry, earlier, found⟩ | ⟨entry, earlier, found⟩) <;>
      · refine ⟨entry, earlier, ?_⟩
        rw [found_chain _ _ _ ((List.takeWhile_prefix _).subset earlier), found]
        simp

/-- The category of the first command is that of the chain unless the second one overtakes it. -/
theorem classifyCommand_chain_first :
    classifyCommand (chain first operator second) = classifyCommand first ↔
      ¬ Overtakes (behindOperator second) (classifyCommand first) := by
  obtain ⟨ahead, found⟩ := (classifyCommand_eq_iff first _).mp rfl
  rw [classifyCommand_eq_iff, overtakes_chain, not_or]
  constructor
  · exact fun holds => holds.1.2
  · intro behind
    refine ⟨⟨ahead, behind⟩, fun entry member same => ?_⟩
    rw [found_chain _ _ _ member, found entry member same, Bool.true_or]

/-- The category of the second command is that of the chain when the first one does not overtake it
and a pattern finds it in the first command or behind the operator. -/
theorem classifyCommand_chain_second :
    classifyCommand (chain first operator second) = classifyCommand second ↔
      ¬ Overtakes (trim first) (classifyCommand second) ∧
        (FoundAs (trim first) (classifyCommand second) ∨
          FoundAs (behindOperator second) (classifyCommand second)) := by
  obtain ⟨ahead, -⟩ := (classifyCommand_eq_iff second _).mp rfl
  have behind : ¬ Overtakes (behindOperator second) (classifyCommand second) := by
    rintro ⟨entry, earlier, found⟩
    have member := (List.takeWhile_prefix _).subset earlier
    exact ahead ⟨entry, earlier, (composes_table entry member).behind found⟩
  rw [classifyCommand_eq_iff, overtakes_chain, or_iff_left behind]
  refine and_congr_right fun _ => ?_
  rcases mem_categories (classifyCommand second) with other | known
  · have none : ∀ text, FoundAs text (classifyCommand second) := by
      intro text entry member same
      have listed := List.mem_map_of_mem (f := Prod.fst) member
      rw [same, other] at listed
      exact absurd listed unknown_not_mem
    exact iff_of_true (none _) (Or.inl (none _))
  · obtain ⟨entry, member, same⟩ := List.mem_map.mp known
    rw [← same, foundAs_iff member, foundAs_iff member, foundAs_iff member,
      found_chain _ _ _ member, Bool.or_eq_true]

end Chain

/-! ## Policies of chains -/

/-- `POLICY_KEY` has a key for the category. -/
def isPoliced : CommandCategory → Bool
  | .inspect | .build | .test | .lint | .typecheck => false
  | _ => true

/-- The configuration that denies one category only. -/
def denyOnly (category : CommandCategory) : CommandsConfig :=
  let policy := fun other => if other = category then Verifier.PolicyValue.deny else .allow
  { network := policy .network
    packageInstall := policy .packageInstall
    migration := policy .migration
    deployment := policy .deployment
    publish := policy .publish
    gitPush := policy .gitPush
    destructive := policy .destructive
    unknown := policy .unknown }

theorem policyOf_denyOnly (category other : CommandCategory) :
    ((denyOnly category).policyOf other).getD .allow = .allow ↔
      other ≠ category ∨ isPoliced category = false := by
  cases category <;> cases other <;> decide

theorem allowed_iff (command : JsString) (config : CommandsConfig) :
    (evaluateCommandPolicy command config).allowed = true ↔
      (config.policyOf (classifyCommand command)).getD .allow = .allow := by
  rw [evaluateCommandPolicy_allowed, evaluateCommandPolicy_policy]

theorem policyOf_unpoliced {category : CommandCategory} (unpoliced : isPoliced category = false)
    (config : CommandsConfig) : config.policyOf category = none := by
  cases category <;> first | rfl | cases unpoliced

/-- Allowing one command allows another, whatever the configuration, just when they are of one
category or the other one is of a category without a policy. -/
theorem allowed_of_allowed_iff (line command : JsString) :
    (∀ config, (evaluateCommandPolicy line config).allowed = true →
        (evaluateCommandPolicy command config).allowed = true) ↔
      isPoliced (classifyCommand command) = false ∨
        classifyCommand line = classifyCommand command := by
  simp only [allowed_iff]
  constructor
  · intro follows
    by_contra neither
    rw [not_or] at neither
    have allowed := follows (denyOnly (classifyCommand command))
      ((policyOf_denyOnly _ _).mpr (Or.inl neither.2))
    rcases (policyOf_denyOnly _ _).mp allowed with different | unpoliced
    · exact different rfl
    · exact neither.1 unpoliced
  · rintro (unpoliced | same) config allowed
    · rw [policyOf_unpoliced unpoliced]
      rfl
    · rwa [← same]

section Policy

variable (first : JsString) (operator : ShellOperator) (second : JsString)

/-- A destructive command makes its chain destructive. -/
theorem destructive_chain (destructive : classifyCommand first = .destructive ∨
    classifyCommand second = .destructive) :
    classifyCommand (chain first operator second) = .destructive := by
  rcases destructive with here | there
  · rw [← here]
    refine (classifyCommand_chain_first first operator second).mpr ?_
    rw [here]
    rintro ⟨entry, earlier, -⟩
    cases earlier
  · rw [← there]
    refine (classifyCommand_chain_second first operator second).mpr ?_
    rw [there]
    have listed : (CommandCategory.destructive, fun command : JsString =>
        destructivePattern.test (command.map Verifier.lowerAscii)) ∈ categoryPatterns :=
      List.mem_cons_self
    have found := ((classifyCommand_eq_iff second _).mp there).2
    rw [foundAs_iff listed] at found
    refine ⟨?_, Or.inr ((foundAs_iff listed _).mpr (destructive_behind found))⟩
    rintro ⟨entry, earlier, -⟩
    cases earlier

theorem chain_policy :
    ((∀ config, (evaluateCommandPolicy (chain first operator second) config).allowed = true →
        (evaluateCommandPolicy first config).allowed = true) ↔
      isPoliced (classifyCommand first) = false ∨
        ¬ Overtakes (behindOperator second) (classifyCommand first)) ∧
    ((∀ config, (evaluateCommandPolicy (chain first operator second) config).allowed = true →
        (evaluateCommandPolicy second config).allowed = true) ↔
      isPoliced (classifyCommand second) = false ∨
        ¬ Overtakes (trim first) (classifyCommand second) ∧
          (FoundAs (trim first) (classifyCommand second) ∨
            FoundAs (behindOperator second) (classifyCommand second))) ∧
    (classifyCommand first = .destructive ∨ classifyCommand second = .destructive →
      classifyCommand (chain first operator second) = .destructive) := by
  rw [allowed_of_allowed_iff, allowed_of_allowed_iff, classifyCommand_chain_first,
    classifyCommand_chain_second]
  exact ⟨Iff.rfl, Iff.rfl, destructive_chain first operator second⟩

end Policy

theorem not_chain_policy : ¬ ∀ (first : JsString) (operator : ShellOperator) (second : JsString)
    (config : CommandsConfig),
    (evaluateCommandPolicy (chain first operator second) config).allowed = true →
      (evaluateCommandPolicy first config).allowed = true ∧
        (evaluateCommandPolicy second config).allowed = true := by
  intro monotone
  have both := monotone (js "npm test") .and (js "git push") (denyOnly .gitPush) (by decide +kernel)
  exact absurd both.2 (by decide +kernel)

end SpecAsCode.Executor
