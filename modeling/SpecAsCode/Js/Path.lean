import SpecAsCode.Js.JsString
import Mathlib.Data.List.Basic

/-!
# Paths

`path.normalize`, `path.join` and `path.dirname`, for slashes.
-/

namespace SpecAsCode.Js.Path

/-- One part of a path after the parts on the stack, the newest first.  `above` is whether the
path may leave the directory it starts in. -/
def resolvePart (above : Bool) (stack : List JsString) (part : JsString) : List JsString :=
  if part = [] ∨ part = js "." then
    stack
  else if part = js ".." then
    match stack with
    | [] => if above then [js ".."] else []
    | top :: rest =>
        if top = js ".." then
          if above then js ".." :: top :: rest else top :: rest
        else
          rest
  else
    part :: stack

/-- `normalizeString`, as the parts that are left. -/
def resolveParts (above : Bool) (path : JsString) : List JsString :=
  ((path.splitOn (unit '/')).foldl (resolvePart above) []).reverse

def isAbsolute (path : JsString) : Bool :=
  path.head? == some (unit '/')

def hasTrailingSlash (path : JsString) : Bool :=
  path.getLast? == some (unit '/')

def normalize (path : JsString) : JsString :=
  if path = [] then
    js "."
  else
    match resolveParts (!isAbsolute path) path with
    | [] =>
        if isAbsolute path then js "/" else if hasTrailingSlash path then js "./" else js "."
    | part :: parts =>
        (if isAbsolute path then js "/" else []) ++ List.intercalate (js "/") (part :: parts) ++
          (if hasTrailingSlash path then js "/" else [])

/-- `path.join` of two paths. -/
def join (first second : JsString) : JsString :=
  if first = [] then
    normalize second
  else if second = [] then
    normalize first
  else
    normalize (first ++ js "/" ++ second)

/-- The last slash after the first code unit, other than the slashes the path ends in, cuts the
path. -/
def dirname (path : JsString) : JsString :=
  match path with
  | [] => js "."
  | first :: rest =>
      match ((rest.reverse.dropWhile fun code => code = unit '/').dropWhile fun code =>
        code ≠ unit '/') with
      | [] => if first = unit '/' then js "/" else js "."
      | _ :: before =>
          if first = unit '/' ∧ before = [] then js "//" else first :: before.reverse

example : normalize (js "specs//shared/.././base.yaml") = js "specs/base.yaml" := by decide +kernel

example : join (dirname (js "specs/login.yaml")) (js "../base.yaml") = js "base.yaml" := by
  decide +kernel

/-! ## Normal paths -/

/-- A part that is a name. -/
structure IsName (part : JsString) : Prop where
  nonempty : part ≠ []
  notDot : part ≠ js "."
  notDots : part ≠ js ".."
  noSlash : unit '/' ∉ part

/-- Stacks that resolving leaves as they are. -/
inductive Settled (above : Bool) : List JsString → Prop
  | empty : Settled above []
  | name {part : JsString} {stack : List JsString} (name : IsName part)
      (settled : Settled above stack) : Settled above (part :: stack)
  | up {stack : List JsString} (allowed : above = true) (settled : Settled above stack)
      (top : ∀ part ∈ stack, part = js "..") : Settled above (js ".." :: stack)

theorem Settled.tail {above : Bool} {part : JsString} {stack : List JsString}
    (settled : Settled above (part :: stack)) : Settled above stack := by
  cases settled with
  | name _ settled => exact settled
  | up _ settled _ => exact settled

theorem Settled.part {above : Bool} {stack : List JsString} (settled : Settled above stack) :
    ∀ part ∈ stack, part ≠ [] ∧ unit '/' ∉ part := by
  induction settled with
  | empty => simp
  | name name _ inductionHypothesis =>
      intro part member
      rcases List.mem_cons.mp member with rfl | later
      · exact ⟨name.nonempty, name.noSlash⟩
      · exact inductionHypothesis part later
  | up _ _ _ inductionHypothesis =>
      intro part member
      rcases List.mem_cons.mp member with rfl | later
      · exact ⟨by decide, by decide⟩
      · exact inductionHypothesis part later

theorem Settled.resolvePart {above : Bool} {stack : List JsString} (settled : Settled above stack)
    {part : JsString} (noSlash : unit '/' ∉ part) : Settled above (resolvePart above stack part) := by
  unfold Path.resolvePart
  split
  next => exact settled
  next visible =>
    rw [not_or] at visible
    split
    next =>
      cases settled with
      | empty =>
          cases above with
          | true => exact .up rfl .empty (by simp)
          | false => exact .empty
      | name name settled =>
          simp only [if_neg name.notDots]
          exact settled
      | up allowed settled top =>
          subst allowed
          exact .up rfl (.up rfl settled top) (by simpa using top)
    next notDots => exact .name ⟨visible.1, visible.2, notDots, noSlash⟩ settled

theorem foldl_resolvePart_settled {above : Bool} (parts : List JsString)
    (noSlash : ∀ part ∈ parts, unit '/' ∉ part) {stack : List JsString}
    (settled : Settled above stack) : Settled above (parts.foldl (resolvePart above) stack) := by
  induction parts generalizing stack with
  | nil => exact settled
  | cons part parts inductionHypothesis =>
      exact inductionHypothesis (fun other later => noSlash other (List.mem_cons_of_mem _ later))
        (settled.resolvePart (noSlash part List.mem_cons_self))

theorem resolvePart_name {above : Bool} {part : JsString} (name : IsName part)
    (stack : List JsString) : resolvePart above stack part = part :: stack := by
  unfold resolvePart
  rw [if_neg (by simp [name.nonempty, name.notDot]), if_neg name.notDots]

/-- Settled stacks are resolved to themselves. -/
theorem foldl_resolvePart_reverse {above : Bool} {stack : List JsString}
    (settled : Settled above stack) : stack.reverse.foldl (resolvePart above) [] = stack := by
  induction settled with
  | empty => rfl
  | name name _ inductionHypothesis =>
      rw [List.reverse_cons, List.foldl_append, inductionHypothesis, List.foldl_cons, List.foldl_nil,
        resolvePart_name name]
  | @up stack allowed _ top inductionHypothesis =>
      rw [List.reverse_cons, List.foldl_append, inductionHypothesis, List.foldl_cons, List.foldl_nil]
      subst allowed
      cases stack with
      | nil => rfl
      | cons first rest =>
          have same := top first List.mem_cons_self
          subst same
          rfl

theorem noSlash_splitOn (path : JsString) : ∀ part ∈ path.splitOn (unit '/'), unit '/' ∉ part := by
  induction path with
  | nil => simp
  | cons code path inductionHypothesis =>
      rw [List.splitOn_cons_eq_if_modifyHead]
      split
      next =>
        intro part member
        rcases List.mem_cons.mp member with rfl | later
        · simp
        · exact inductionHypothesis part later
      next different =>
        obtain ⟨head, parts, split⟩ : ∃ head parts, path.splitOn (unit '/') = head :: parts :=
          List.exists_cons_of_ne_nil (List.splitOn_ne_nil _ _)
        rw [split] at inductionHypothesis ⊢
        intro part member
        rcases List.mem_cons.mp member with rfl | later
        · have other : unit '/' ≠ code := fun same => different (by simp [same])
          simp [other, inductionHypothesis head List.mem_cons_self]
        · exact inductionHypothesis part (List.mem_cons_of_mem _ later)

theorem settled_resolveParts (above : Bool) (path : JsString) :
    Settled above (resolveParts above path).reverse := by
  rw [resolveParts, List.reverse_reverse]
  exact foldl_resolvePart_settled _ (noSlash_splitOn path) .empty

/-! ## Normalizing twice -/

/-- A list of parts as a normal path has them. -/
def Parts (parts : List JsString) : Prop :=
  ∀ part ∈ parts, part ≠ [] ∧ unit '/' ∉ part

theorem intercalate_ne_nil {part : JsString} {parts : List JsString}
    (shape : Parts (part :: parts)) : List.intercalate (js "/") (part :: parts) ≠ [] := by
  have nonempty := (shape part List.mem_cons_self).1
  cases parts with
  | nil => rwa [List.intercalate_singleton]
  | cons next parts => simp [List.intercalate_cons_cons, nonempty]

theorem head?_intercalate {part : JsString} {parts : List JsString}
    (shape : Parts (part :: parts)) :
    (List.intercalate (js "/") (part :: parts)).head? ≠ some (unit '/') := by
  obtain ⟨nonempty, noSlash⟩ := shape part List.mem_cons_self
  obtain ⟨first, rest, rfl⟩ := List.exists_cons_of_ne_nil nonempty
  have different : first ≠ unit '/' := fun same => noSlash (same ▸ List.mem_cons_self)
  cases parts with
  | nil => simpa using different
  | cons next parts => simpa [List.intercalate_cons_cons] using different

theorem getLast?_intercalate {part : JsString} {parts : List JsString}
    (shape : Parts (part :: parts)) :
    (List.intercalate (js "/") (part :: parts)).getLast? ≠ some (unit '/') := by
  induction parts generalizing part with
  | nil =>
      rw [List.intercalate_singleton]
      exact fun last => (shape part List.mem_cons_self).2 (List.mem_of_getLast? last)
  | cons next parts inductionHypothesis =>
      have later : Parts (next :: parts) := fun other member =>
        shape other (List.mem_cons_of_mem _ member)
      rw [List.intercalate_cons_cons, List.getLast?_append_of_ne_nil _ (intercalate_ne_nil later)]
      exact inductionHypothesis later

theorem resolvePart_nil (above : Bool) (stack : List JsString) : resolvePart above stack [] = stack := by
  unfold resolvePart
  rw [if_pos (Or.inl rfl)]

/-- The parts of a path with slashes around them are resolved to themselves. -/
theorem resolveParts_surrounded {above : Bool} {part : JsString} {parts : List JsString}
    (settled : Settled above (part :: parts).reverse) (absolute trailing : Bool) :
    resolveParts above ((if absolute then js "/" else []) ++
      List.intercalate (js "/") (part :: parts) ++ (if trailing then js "/" else [])) =
        part :: parts := by
  have shape : Parts (part :: parts) := fun other member =>
    settled.part other (List.mem_reverse.mpr member)
  have body : (List.intercalate (js "/") (part :: parts)).splitOn (unit '/') = part :: parts :=
    List.splitOn_intercalate (unit '/') (fun other member => (shape other member).2) (by simp)
  have folded := foldl_resolvePart_reverse settled
  rw [List.reverse_reverse] at folded
  have before : ∀ text : JsString, (((if absolute then js "/" else []) ++ text).splitOn
      (unit '/')).foldl (resolvePart above) [] = (text.splitOn (unit '/')).foldl (resolvePart above) [] := by
    intro text
    cases absolute with
    | false => rfl
    | true =>
        show ((unit '/' :: text).splitOn (unit '/')).foldl (resolvePart above) [] = _
        rw [List.splitOn_cons_eq_if_modifyHead, if_pos (by simp), List.foldl_cons, resolvePart_nil]
  rw [resolveParts, List.append_assoc, before]
  cases trailing with
  | false =>
      rw [if_neg (by simp), List.append_nil, body, folded, List.reverse_reverse]
  | true =>
      rw [if_pos rfl]
      show (((List.intercalate (js "/") (part :: parts) ++ unit '/' :: []).splitOn
        (unit '/')).foldl (resolvePart above) []).reverse = _
      rw [List.splitOn_append_cons_self, body, List.foldl_append, folded, List.splitOn_nil,
        List.foldl_cons, resolvePart_nil, List.foldl_nil, List.reverse_reverse]

theorem isAbsolute_surrounded {part : JsString} {parts : List JsString}
    (shape : Parts (part :: parts)) (absolute : Bool) (after : JsString) :
    isAbsolute ((if absolute then js "/" else []) ++ List.intercalate (js "/") (part :: parts) ++
      after) = absolute := by
  cases absolute with
  | true => rfl
  | false =>
      obtain ⟨first, rest, equal⟩ := List.exists_cons_of_ne_nil (intercalate_ne_nil shape)
      have different := head?_intercalate shape
      rw [equal] at different
      rw [if_neg (by simp), List.nil_append, equal, isAbsolute]
      simpa using different

theorem hasTrailingSlash_surrounded {part : JsString} {parts : List JsString}
    (shape : Parts (part :: parts)) (before : JsString) (trailing : Bool) :
    hasTrailingSlash (before ++ List.intercalate (js "/") (part :: parts) ++
      (if trailing then js "/" else [])) = trailing := by
  cases trailing with
  | true =>
      rw [if_pos rfl, hasTrailingSlash, List.getLast?_append_of_ne_nil _ (by simp [js])]
      rfl
  | false =>
      rw [if_neg (by simp), List.append_nil, hasTrailingSlash,
        List.getLast?_append_of_ne_nil _ (intercalate_ne_nil shape)]
      simpa using getLast?_intercalate shape

theorem normalize_ne_nil (path : JsString) : normalize path ≠ [] := by
  unfold normalize
  split
  next => decide
  next =>
    split
    next => split_ifs <;> decide
    next part parts parted =>
      have settled := settled_resolveParts (!isAbsolute path) path
      rw [parted] at settled
      have nonempty := intercalate_ne_nil fun other member =>
        settled.part other (List.mem_reverse.mpr member)
      simp [nonempty]

theorem normalize_of_parts {path : JsString} {part : JsString} {parts : List JsString}
    (nonempty : path ≠ []) (parted : resolveParts (!isAbsolute path) path = part :: parts) :
    normalize path = (if isAbsolute path then js "/" else []) ++
      List.intercalate (js "/") (part :: parts) ++ (if hasTrailingSlash path then js "/" else []) := by
  unfold normalize
  rw [if_neg nonempty, parted]

@[simp]
theorem normalize_normalize (path : JsString) : normalize (normalize path) = normalize path := by
  by_cases empty : path = []
  · subst empty
    decide +kernel
  · cases parted : resolveParts (!isAbsolute path) path with
    | nil =>
        have short : normalize path = if isAbsolute path then js "/" else
            if hasTrailingSlash path then js "./" else js "." := by
          unfold normalize
          rw [if_neg empty, parted]
        rw [short]
        split_ifs <;> decide +kernel
    | cons part parts =>
        have settled := settled_resolveParts (!isAbsolute path) path
        rw [parted] at settled
        have shape : Parts (part :: parts) := fun other member =>
          settled.part other (List.mem_reverse.mpr member)
        have form := normalize_of_parts empty parted
        have absolute : isAbsolute (normalize path) = isAbsolute path := by
          rw [form]
          exact isAbsolute_surrounded shape _ _
        have trailing : hasTrailingSlash (normalize path) = hasTrailingSlash path := by
          rw [form]
          exact hasTrailingSlash_surrounded shape _ _
        have again : resolveParts (!isAbsolute (normalize path)) (normalize path) = part :: parts := by
          rw [absolute, form]
          exact resolveParts_surrounded settled _ _
        rw [normalize_of_parts (normalize_ne_nil path) again, absolute, trailing, ← form]

@[simp]
theorem normalize_join (first second : JsString) :
    normalize (join first second) = join first second := by
  unfold join
  split_ifs <;> exact normalize_normalize _

end SpecAsCode.Js.Path
