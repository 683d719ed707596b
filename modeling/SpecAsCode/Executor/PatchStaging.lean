import SpecAsCode.Executor.Patch
import SpecAsCode.Text.Utf8Search

/-!
# Staging and sequential application

The sequential meaning of a list of proposed changes, and when staging the list and
performing the staged writes and deletes comes to the same.
-/

namespace SpecAsCode.Executor

open SpecAsCode.Js
open SpecAsCode.Core
open SpecAsCode.Text

/-! ## The sequential meaning -/

section Sequential

variable (sha256Hex : List Octet → JsString)

/-- The patch was made for the octets, and its anchor occurs in them once. -/
def Legal (octets : List Octet) (baseDigest anchor : JsString) : Prop :=
  js "sha256:" ++ sha256Hex octets = baseDigest ∧ Occurrence.count (encodeUtf8 anchor) octets = 1

instance (octets : List Octet) (baseDigest anchor : JsString) :
    Decidable (Legal sha256Hex octets baseDigest anchor) :=
  inferInstanceAs (Decidable (_ ∧ _))

/-- One change, applied to the files themselves. -/
def applyChange (tree : Tree) : ProposedChange → Option Tree
  | .create path content => some (tree.set path (some (encodeUtf8 content)))
  | .update path content => some (tree.set path (some (encodeUtf8 content)))
  | .delete path => some (tree.set path none)
  | .patch path baseDigest anchor replacement _ =>
      match tree (normalizeRelPath path) with
      | none => none
      | some octets =>
          if Legal sha256Hex octets baseDigest anchor then
            (Occurrence.split (encodeUtf8 anchor) octets).map fun (before, after) =>
              tree.set path (some (before ++ encodeUtf8 replacement ++ after))
          else
            none

/-- The changes one after another, as long as they are legal. -/
def applyChanges (tree : Tree) (changes : List ProposedChange) : Option Tree :=
  changes.foldlM (applyChange sha256Hex) tree

/-- The staged changes come to the sequential ones: they are refused if and only if one of
the changes is not legal at its position, and performed they yield the same tree. -/
def StagesRight (tree : Tree) (changes : List ProposedChange) : Prop :=
  (stageChanges sha256Hex tree changes).toOption.map (perform tree) =
    applyChanges sha256Hex tree changes

/-! ## When staging is right -/

/-- No unpaired surrogates in the texts of a change. -/
def ProposedChange.WellFormed : ProposedChange → Prop
  | .create _ content => isWellFormedText content = true
  | .update _ content => isWellFormedText content = true
  | .patch _ _ anchor replacement _ =>
      isWellFormedText anchor = true ∧ isWellFormedText replacement = true
  | .delete _ => True

/-- The file is patched by one of the changes. -/
def Patched (changes : List ProposedChange) (path : JsString) : Prop :=
  ∃ baseDigest anchor replacement nonempty,
    ProposedChange.patch path baseDigest anchor replacement nonempty ∈ changes

/-- Every file is spelled in one way, and the texts of the files that are patched have no
unpaired surrogates. -/
structure Clean (changes : List ProposedChange) : Prop where
  spelling : ∀ change ∈ changes, ∀ other ∈ changes,
    normalizeRelPath change.path = normalizeRelPath other.path → change.path = other.path
  texts : ∀ change ∈ changes, Patched changes change.path → change.WellFormed

/-- The checks of the code: the digest of the text is the declared one, and the anchor
occurs in it once. -/
def Applies (text baseDigest anchor : JsString) : Prop :=
  fileDigest sha256Hex text = baseDigest ∧ countOccurrences text anchor = 1

/-- What a change needs at its position.  A patch of a file that was deleted before, or
never was there, does not apply to what the worktree still holds.  A patch of a file that is not
UTF-8 applies neither to the file nor to the text it is read as.  And the replacement of a
patch that applies is what `String.prototype.replace` makes of it. -/
def Fits (tree : Tree) (before : List ProposedChange) : ProposedChange → Prop
  | .create _ _ => True
  | .update _ _ => True
  | .delete _ => True
  | .patch path baseDigest anchor replacement _ =>
      ∀ now, applyChanges sha256Hex tree before = some now →
        match now (normalizeRelPath path) with
        | none => ∀ octets, tree (normalizeRelPath path) = some octets →
            ¬ Applies sha256Hex (decodeUtf8 octets) baseDigest anchor
        | some octets =>
            if encodeUtf8 (decodeUtf8 octets) = octets then
              Legal sha256Hex octets baseDigest anchor → ∀ head tail,
                Occurrence.split anchor (decodeUtf8 octets) = some (head, tail) →
                  getSubstitution anchor head tail replacement = replacement
            else
              ¬ Legal sha256Hex octets baseDigest anchor ∧
                ¬ Applies sha256Hex (decodeUtf8 octets) baseDigest anchor

end Sequential

/-! ## Texts and octets -/

/-- The substitution of a replacement that stands behind another text. -/
private theorem getSubstitution_behind {matched before after replacement : JsString}
    (matchedWellFormed : isWellFormedText matched = true)
    (beforeWellFormed : isWellFormedText before = true)
    (afterWellFormed : isWellFormedText after = true) (front : JsString)
    (wellFormed : isWellFormedText (front ++ replacement) = true) :
    isWellFormedText (front ++ getSubstitution matched before after replacement) = true := by
  have dollar : ∀ front next rest, isSurrogate next = false →
      isWellFormedText (front ++ unit '$' :: next :: rest) = true →
      isWellFormedText front = true ∧ isWellFormedText rest = true := by
    intro front next rest plain whole
    obtain ⟨frontWellFormed, others⟩ := wellFormed_of_append whole (by
      intro code tail shape
      rw [← (List.cons.inj shape).1]
      decide)
    have pair : isWellFormedText [unit '$', next] = true :=
      isWellFormedText_cons (by decide) (by rw [isWellFormedText, plain]; rfl)
    exact ⟨frontWellFormed, wellFormed_right pair others⟩
  -- the text in front grows by the code units that stay
  fun_induction getSubstitution matched before after replacement generalizing front with
  | case1 rest inductionHypothesis =>
      obtain ⟨frontWellFormed, restWellFormed⟩ := dollar front _ rest (by decide) wellFormed
      exact isWellFormedText_append frontWellFormed
        (isWellFormedText_cons (by decide) (inductionHypothesis [] restWellFormed))
  | case2 rest _ inductionHypothesis =>
      obtain ⟨frontWellFormed, restWellFormed⟩ := dollar front _ rest (by decide) wellFormed
      exact isWellFormedText_append frontWellFormed
        (isWellFormedText_append matchedWellFormed (inductionHypothesis [] restWellFormed))
  | case3 rest _ _ inductionHypothesis =>
      obtain ⟨frontWellFormed, restWellFormed⟩ := dollar front _ rest (by decide) wellFormed
      exact isWellFormedText_append frontWellFormed
        (isWellFormedText_append beforeWellFormed (inductionHypothesis [] restWellFormed))
  | case4 rest _ _ _ inductionHypothesis =>
      obtain ⟨frontWellFormed, restWellFormed⟩ := dollar front _ rest (by decide) wellFormed
      exact isWellFormedText_append frontWellFormed
        (isWellFormedText_append afterWellFormed (inductionHypothesis [] restWellFormed))
  | case5 next rest _ _ _ _ inductionHypothesis =>
      have later := inductionHypothesis (front ++ [unit '$'])
      rw [List.append_assoc, List.append_assoc] at later
      exact later wellFormed
  | case6 code next rest _ inductionHypothesis =>
      have later := inductionHypothesis (front ++ [code])
      rw [List.append_assoc, List.append_assoc] at later
      exact later wellFormed
  | case7 text _ => exact wellFormed

theorem getSubstitution_wellFormed {matched before after replacement : JsString}
    (matchedWellFormed : isWellFormedText matched = true)
    (beforeWellFormed : isWellFormedText before = true)
    (afterWellFormed : isWellFormedText after = true)
    (wellFormed : isWellFormedText replacement = true) :
    isWellFormedText (getSubstitution matched before after replacement) = true :=
  getSubstitution_behind matchedWellFormed beforeWellFormed afterWellFormed [] wellFormed

section Text

variable {sha256Hex : List Octet → JsString} {text baseDigest anchor : JsString}
  (wellFormed : isWellFormedText text = true) (anchorWellFormed : isWellFormedText anchor = true)
  (nonempty : anchor ≠ [])

include wellFormed anchorWellFormed nonempty

theorem legal_encodeUtf8 :
    Legal sha256Hex (encodeUtf8 text) baseDigest anchor ↔ Applies sha256Hex text baseDigest anchor := by
  rw [Legal, Applies, count_encodeUtf8 anchorWellFormed nonempty text wellFormed]
  rfl

/-- A patch that applies: the parts of the text, and of its octets. -/
theorem exists_split_of_applies (applies : Applies sha256Hex text baseDigest anchor) :
    ∃ before after, Occurrence.split anchor text = some (before, after) ∧
      Occurrence.split (encodeUtf8 anchor) (encodeUtf8 text) =
        some (encodeUtf8 before, encodeUtf8 after) ∧
      isWellFormedText before = true ∧ isWellFormedText after = true := by
  obtain ⟨before, after, split⟩ := @Occurrence.exists_split _ _ anchor text
    (by rw [show Occurrence.count anchor text = 1 from applies.2]; decide)
  have whole := Occurrence.split_sound split
  rw [whole] at wellFormed
  obtain ⟨beforeWellFormed, afterWellFormed⟩ := wellFormed_around anchorWellFormed nonempty wellFormed
  refine ⟨before, after, split, ?_, beforeWellFormed, afterWellFormed⟩
  rw [← whole] at wellFormed
  rw [split_encodeUtf8 anchorWellFormed nonempty text wellFormed, split]
  rfl

end Text

/-! ## Performing a staged set -/

theorem performWrites_other {writes : List StagedWrite} {key : JsString}
    (others : ∀ write ∈ writes, normalizeRelPath write.path ≠ key) (tree : Tree) :
    writes.foldl performWrite tree key = tree key := by
  induction writes generalizing tree with
  | nil => rfl
  | cons write writes inductionHypothesis =>
      rw [List.forall_mem_cons] at others
      rw [List.foldl_cons, inductionHypothesis others.2, performWrite,
        Tree.set_ne tree (Ne.symm others.1)]

theorem performWrites_same {writes : List StagedWrite} {key content : JsString} {tree : Tree}
    (same : ∀ write ∈ writes, normalizeRelPath write.path = key → write.content = content)
    (written : tree key = some (encodeUtf8 content) ∨
      ∃ write ∈ writes, normalizeRelPath write.path = key) :
    writes.foldl performWrite tree key = some (encodeUtf8 content) := by
  induction writes generalizing tree with
  | nil => exact written.resolve_right (by simp)
  | cons write writes inductionHypothesis =>
      rw [List.forall_mem_cons] at same
      refine inductionHypothesis same.2 ?_
      by_cases here : normalizeRelPath write.path = key
      · left
        rw [performWrite, ← here, Tree.set_self, same.1 here]
      · rw [List.exists_mem_cons_iff] at written
        rw [performWrite, Tree.set_ne tree (Ne.symm here)]
        exact written.imp_right fun found => found.resolve_left here

theorem performDeletes_apply (deletes : List JsString) (tree : Tree) (key : JsString) :
    deletes.foldl performDelete tree key =
      if ∃ path ∈ deletes, normalizeRelPath path = key then none else tree key := by
  induction deletes generalizing tree with
  | nil => simp
  | cons path deletes inductionHypothesis =>
      rw [List.foldl_cons, inductionHypothesis, performDelete]
      simp only [List.exists_mem_cons_iff]
      by_cases here : normalizeRelPath path = key
      · rw [← here, Tree.set_self]
        simp
      · rw [Tree.set_ne tree (Ne.symm here)]
        simp [here]

/-- What a path holds when the staged set is performed. -/
def Staging.content (tree : Tree) (staging : Staging) (path : JsString) : Option (List Octet) :=
  ((staging.overlay.get? path).map encodeUtf8).or
    (if path ∈ staging.deletes then none else tree (normalizeRelPath path))

/-- The state of the loop stands for the tree of the sequential meaning. -/
structure Tracks (changes : List ProposedChange) (tree now : Tree) (staging : Staging) : Prop where
  overlaid : ∀ path text, staging.overlay.get? path = some text →
    ∃ change ∈ changes, change.path = path
  deleted : ∀ path ∈ staging.deletes, ∃ change ∈ changes, change.path = path
  apart : ∀ path ∈ staging.deletes, staging.overlay.get? path = none
  content : ∀ change ∈ changes,
    now (normalizeRelPath change.path) = staging.content tree change.path
  others : ∀ key, (∀ change ∈ changes, normalizeRelPath change.path ≠ key) → now key = tree key
  texts : ∀ path text, staging.overlay.get? path = some text → Patched changes path →
    isWellFormedText text = true

section Tracks

variable {changes : List ProposedChange} (clean : Clean changes) {tree now : Tree}
  {staging : Staging}

theorem tracks_empty : Tracks changes tree tree Staging.empty :=
  ⟨by simp [Staging.empty], by simp [Staging.empty], by simp [Staging.empty],
    fun _ _ => rfl, fun _ _ => rfl, by simp [Staging.empty]⟩

include clean

/-- Performing what is staged yields the tree. -/
theorem Tracks.perform (tracks : Tracks changes tree now staging) :
    Executor.perform tree staging.result = now := by
  funext key
  rw [Executor.perform, performDeletes_apply]
  by_cases touched : ∃ change ∈ changes, normalizeRelPath change.path = key
  · obtain ⟨change, member, rfl⟩ := touched
    rw [tracks.content change member, Staging.content]
    -- a file is spelled one way, so its entry is the only one
    have alone : ∀ path, (∃ other ∈ changes, other.path = path) →
        normalizeRelPath path = normalizeRelPath change.path → path = change.path := by
      rintro path ⟨other, otherMember, rfl⟩ same
      exact clean.spelling other otherMember change member same
    have removed : (∃ path ∈ staging.result.deletes,
        normalizeRelPath path = normalizeRelPath change.path) ↔ change.path ∈ staging.deletes := by
      constructor
      · rintro ⟨path, found, same⟩
        rw [← alone path (tracks.deleted path found) same]
        exact found
      · exact fun found => ⟨change.path, found, rfl⟩
    simp only [removed]
    cases overlay : staging.overlay.get? change.path with
    | some text =>
        have kept : change.path ∉ staging.deletes := fun found => by
          rw [tracks.apart _ found] at overlay
          cases overlay
        rw [if_neg kept]
        refine performWrites_same ?_ (Or.inr ?_)
        · intro write found same
          obtain ⟨⟨path, content⟩, entry, rfl⟩ := List.mem_map.mp found
          have here := OrderedMap.get?_eq_some.mpr entry
          rw [alone path (tracks.overlaid path content here) same, overlay] at here
          exact (Option.some.inj here).symm
        · exact ⟨_, List.mem_map_of_mem (OrderedMap.get?_eq_some.mp overlay), rfl⟩
    | none =>
        by_cases gone : change.path ∈ staging.deletes
        · rw [if_pos gone, if_pos gone]
          rfl
        · rw [if_neg gone, if_neg gone]
          refine performWrites_other ?_ tree
          intro write found same
          obtain ⟨⟨path, content⟩, entry, rfl⟩ := List.mem_map.mp found
          have here := OrderedMap.get?_eq_some.mpr entry
          rw [alone path (tracks.overlaid path content here) same, overlay] at here
          cases here
  · have untouched : ∀ change ∈ changes, normalizeRelPath change.path ≠ key :=
      fun change member same => touched ⟨change, member, same⟩
    rw [tracks.others key untouched, if_neg, performWrites_other]
    · intro write found same
      obtain ⟨⟨path, content⟩, entry, rfl⟩ := List.mem_map.mp found
      obtain ⟨change, member, rfl⟩ :=
        tracks.overlaid path content (OrderedMap.get?_eq_some.mpr entry)
      exact untouched change member same
    · rintro ⟨path, found, same⟩
      obtain ⟨change, member, rfl⟩ := tracks.deleted path found
      exact untouched change member same

/-- A write keeps the correspondence. -/
theorem Tracks.write (tracks : Tracks changes tree now staging) {change : ProposedChange}
    (member : change ∈ changes) {text : JsString} (label : WriteLabel)
    (wellFormed : Patched changes change.path → isWellFormedText text = true) :
    Tracks changes tree (now.set change.path (some (encodeUtf8 text)))
      (staging.write change.path text label) := by
  have overlay : ∀ path, (staging.write change.path text label).overlay.get? path =
      if path = change.path then some text else staging.overlay.get? path := by
    intro path
    by_cases here : path = change.path
    · rw [if_pos here, here]
      exact OrderedMap.get?_set_self _ _ _
    · rw [if_neg here]
      exact OrderedMap.get?_set_ne _ here _
  have deletes : ∀ path, path ∈ (staging.write change.path text label).deletes ↔
      path ∈ staging.deletes ∧ path ≠ change.path := by
    intro path
    simp [Staging.write]
  refine ⟨?_, ?_, ?_, ?_, ?_, ?_⟩
  · intro path found known
    rw [overlay] at known
    split_ifs at known with here
    · exact ⟨change, member, here.symm⟩
    · exact tracks.overlaid path found known
  · intro path found
    exact tracks.deleted path ((deletes path).mp found).1
  · intro path found
    obtain ⟨before, different⟩ := (deletes path).mp found
    rw [overlay, if_neg different]
    exact tracks.apart path before
  · intro other otherMember
    rw [Staging.content, overlay]
    by_cases here : other.path = change.path
    · rw [if_pos here, here, Tree.set_self]
      rfl
    · have apart : normalizeRelPath other.path ≠ normalizeRelPath change.path :=
        fun same => here (clean.spelling other otherMember change member same)
      have kept : other.path ∈ (staging.write change.path text label).deletes ↔
          other.path ∈ staging.deletes := by simp [deletes, here]
      rw [if_neg here, Tree.set_ne _ apart, tracks.content other otherMember, Staging.content]
      simp only [kept]
  · intro key others
    rw [Tree.set_ne _ (Ne.symm (others change member))]
    exact tracks.others key others
  · intro path found known patched
    rw [overlay] at known
    split_ifs at known with here
    · cases known
      exact wellFormed (here ▸ patched)
    · exact tracks.texts path found known patched

/-- A delete keeps the correspondence. -/
theorem Tracks.delete (tracks : Tracks changes tree now staging) {path : JsString}
    (member : ProposedChange.delete path ∈ changes) :
    Tracks changes tree (now.set path none) (staging.delete path) := by
  have overlay : ∀ other, (staging.delete path).overlay.get? other =
      if other = path then none else staging.overlay.get? other := by
    intro other
    by_cases here : other = path
    · rw [if_pos here, here]
      exact OrderedMap.get?_delete_self _ _
    · rw [if_neg here]
      exact OrderedMap.get?_delete_ne _ here
  have deletes : ∀ other, other ∈ (staging.delete path).deletes ↔
      other ∈ staging.deletes ∨ other = path := by
    intro other
    simp only [Staging.delete]
    split_ifs with known
    · constructor
      · exact Or.inl
      · rintro (found | rfl)
        · exact found
        · exact known
    · simp
  refine ⟨?_, ?_, ?_, ?_, ?_, ?_⟩
  · intro other found known
    rw [overlay] at known
    split_ifs at known
    exact tracks.overlaid other found known
  · intro other found
    rcases (deletes other).mp found with before | rfl
    · exact tracks.deleted other before
    · exact ⟨_, member, rfl⟩
  · intro other found
    rw [overlay]
    split_ifs with here
    · rfl
    · exact tracks.apart other (((deletes other).mp found).resolve_right here)
  · intro other otherMember
    rw [Staging.content, overlay]
    by_cases here : other.path = path
    · have gone : other.path ∈ (staging.delete path).deletes := (deletes _).mpr (Or.inr here)
      rw [if_pos here, if_pos gone, here, Tree.set_self]
      rfl
    · have apart : normalizeRelPath other.path ≠ normalizeRelPath path :=
        fun same => here (clean.spelling other otherMember _ member same)
      have kept : other.path ∈ (staging.delete path).deletes ↔ other.path ∈ staging.deletes := by
        simp [deletes, here]
      rw [if_neg here, Tree.set_ne _ apart, tracks.content other otherMember, Staging.content]
      simp only [kept]
  · intro key others
    have different : key ≠ normalizeRelPath path := Ne.symm (others _ member)
    rw [Tree.set_ne _ different]
    exact tracks.others key others
  · intro other found known patched
    rw [overlay] at known
    split_ifs at known
    exact tracks.texts other found known patched

end Tracks

/-! ## One patch -/

section Patch

variable {sha256Hex : List Octet → JsString} {tree now : Tree} {staging : Staging}
  {path baseDigest anchor replacement : JsString} {nonempty : anchor ≠ []}

theorem stageChange_missing (absent : baseText tree staging path = none) :
    ∃ refusal, stageChange sha256Hex tree staging
      (.patch path baseDigest anchor replacement nonempty) = .error refusal :=
  ⟨_, by simp only [stageChange, absent]; rfl⟩

theorem stageChange_applies {base : JsString} (known : baseText tree staging path = some base)
    (applies : Applies sha256Hex base baseDigest anchor) :
    stageChange sha256Hex tree staging (.patch path baseDigest anchor replacement nonempty) =
      .ok (staging.write path (replaceFirst base anchor replacement) .patched) := by
  simp only [stageChange, known]
  rw [if_neg (not_not.mpr applies.1), if_neg (by rw [applies.2]; decide),
    if_neg (by rw [applies.2]; decide)]

theorem stageChange_refuses {base : JsString} (known : baseText tree staging path = some base)
    (refused : ¬ Applies sha256Hex base baseDigest anchor) :
    ∃ refusal, stageChange sha256Hex tree staging
      (.patch path baseDigest anchor replacement nonempty) = .error refusal := by
  simp only [stageChange, known]
  by_cases mismatch : fileDigest sha256Hex base ≠ baseDigest
  · exact ⟨_, if_pos mismatch⟩
  · have several : countOccurrences base anchor ≠ 1 :=
      fun once => refused ⟨not_not.mp mismatch, once⟩
    rw [if_neg mismatch]
    by_cases absent : countOccurrences base anchor = 0
    · exact ⟨_, if_pos absent⟩
    · rw [if_neg absent]
      exact ⟨_, if_pos (by omega)⟩

theorem applyChange_refuses {octets : List Octet} (known : now (normalizeRelPath path) = some octets)
    (refused : ¬ Legal sha256Hex octets baseDigest anchor) :
    applyChange sha256Hex now (.patch path baseDigest anchor replacement nonempty) = none := by
  simp only [applyChange, known, if_neg refused]

theorem applyChange_legal {octets : List Octet} (known : now (normalizeRelPath path) = some octets)
    (legal : Legal sha256Hex octets baseDigest anchor) :
    ∃ before after, Occurrence.split (encodeUtf8 anchor) octets = some (before, after) ∧
      applyChange sha256Hex now (.patch path baseDigest anchor replacement nonempty) =
        some (now.set path (some (before ++ encodeUtf8 replacement ++ after))) := by
  obtain ⟨before, after, split⟩ := @Occurrence.exists_split _ _ (encodeUtf8 anchor)
    octets (by rw [legal.2]; decide)
  exact ⟨before, after, split, by simp only [applyChange, known, if_pos legal, split]; rfl⟩

/-- The text a patch is applied to, for a file that is there and one that is not. -/
theorem Tracks.baseText {changes : List ProposedChange} (tracks : Tracks changes tree now staging)
    (member : ProposedChange.patch path baseDigest anchor replacement nonempty ∈ changes) :
    (∃ octets, now (normalizeRelPath path) = some octets ∧
        Executor.baseText tree staging path = some (decodeUtf8 octets)) ∨
      (now (normalizeRelPath path) = none ∧
        Executor.baseText tree staging path = (tree (normalizeRelPath path)).map decodeUtf8) := by
  have content : now (normalizeRelPath path) = staging.content tree path := tracks.content _ member
  rw [Staging.content] at content
  rw [Executor.baseText]
  cases overlay : staging.overlay.get? path with
  | some text =>
      rw [overlay] at content
      have patched : Patched changes path := ⟨_, _, _, _, member⟩
      have read := decodeUtf8_wellFormed (tracks.texts path text overlay patched)
      exact Or.inl ⟨encodeUtf8 text, content, by rw [read]⟩
  | none =>
      rw [overlay] at content
      by_cases gone : path ∈ staging.deletes
      · rw [if_pos gone] at content
        exact Or.inr ⟨content, rfl⟩
      · rw [if_neg gone, Option.map_none, Option.none_or] at content
        rw [content]
        cases tree (normalizeRelPath path) with
        | none => exact Or.inr ⟨rfl, rfl⟩
        | some octets => exact Or.inl ⟨octets, rfl, rfl⟩

theorem replaceFirst_split {text before after : JsString}
    (split : Occurrence.split anchor text = some (before, after)) :
    replaceFirst text anchor replacement =
      before ++ getSubstitution anchor before after replacement ++ after := by
  rw [replaceFirst, split]

theorem encodeUtf8_around {before middle after : JsString}
    (beforeWellFormed : isWellFormedText before = true)
    (middleWellFormed : isWellFormedText middle = true) :
    encodeUtf8 (before ++ middle ++ after) =
      encodeUtf8 before ++ encodeUtf8 middle ++ encodeUtf8 after := by
  rw [encodeUtf8_append (isWellFormedText_append beforeWellFormed middleWellFormed),
    encodeUtf8_append beforeWellFormed]

end Patch

/-! ## The lists -/

section Lists

variable {sha256Hex : List Octet → JsString} {changes before : List ProposedChange}
  (clean : Clean changes) {tree : Tree}

/-- Both meanings refuse, or the staged state stands for the tree. -/
def Agree (sha256Hex : List Octet → JsString) (changes : List ProposedChange) (tree : Tree)
    (before : List ProposedChange) : Prop :=
  (applyChanges sha256Hex tree before = none ∧
      ∃ refusal, stageAll sha256Hex tree before = .error refusal) ∨
    ∃ now staging, applyChanges sha256Hex tree before = some now ∧
      stageAll sha256Hex tree before = .ok staging ∧ Tracks changes tree now staging

theorem applyChanges_snoc (change : ProposedChange) :
    applyChanges sha256Hex tree (before ++ [change]) =
      (applyChanges sha256Hex tree before).bind fun now => applyChange sha256Hex now change := by
  rw [applyChanges, List.foldlM_append]
  simp [applyChanges]

theorem stageAll_snoc (change : ProposedChange) :
    stageAll sha256Hex tree (before ++ [change]) =
      (stageAll sha256Hex tree before).bind fun staging =>
        stageChange sha256Hex tree staging change := by
  rw [stageAll, List.foldlM_append]
  simp only [List.foldlM_cons, List.foldlM_nil, bind_pure]
  rfl

include clean

/-- Lists on which the two meanings agree are staged right. -/
theorem Agree.stagesRight (agree : Agree sha256Hex changes tree before) :
    StagesRight sha256Hex tree before := by
  rw [StagesRight, stageChanges]
  rcases agree with ⟨illegal, refusal, refused⟩ | ⟨now, staging, legal, staged, tracks⟩
  · rw [illegal, refused]
    rfl
  · rw [legal, staged, ← tracks.perform clean]
    rfl

omit clean in
theorem Agree.snoc_of_refused {change : ProposedChange}
    (illegal : applyChanges sha256Hex tree before = none) {refusal : StageRefusal} (refused : stageAll sha256Hex tree before = .error refusal) :
    Agree sha256Hex changes tree (before ++ [change]) := by
  left
  rw [applyChanges_snoc, stageAll_snoc, illegal, refused]
  exact ⟨rfl, refusal, rfl⟩

/-- A patch of a well-formed text that applies, on both sides. -/
theorem patch_applies {now : Tree} {staging : Staging}
    (tracks : Tracks changes tree now staging) {path baseDigest anchor replacement : JsString}
    {nonempty : anchor ≠ []}
    (member : ProposedChange.patch path baseDigest anchor replacement nonempty ∈ changes)
    {octets : List Octet} (held : now (normalizeRelPath path) = some octets)
    (base : baseText tree staging path = some (decodeUtf8 octets))
    (readable : encodeUtf8 (decodeUtf8 octets) = octets)
    (applies : Applies sha256Hex (decodeUtf8 octets) baseDigest anchor) :
    ∃ head tail, Occurrence.split anchor (decodeUtf8 octets) = some (head, tail) ∧
      applyChange sha256Hex now (.patch path baseDigest anchor replacement nonempty) =
        some (now.set path (some (encodeUtf8 (head ++ replacement ++ tail)))) ∧
      stageChange sha256Hex tree staging (.patch path baseDigest anchor replacement nonempty) =
        .ok (staging.write path (head ++ getSubstitution anchor head tail replacement ++ tail)
          .patched) ∧
      isWellFormedText head = true ∧ isWellFormedText tail = true ∧
      Tracks changes tree
        (now.set path (some (encodeUtf8
          (head ++ getSubstitution anchor head tail replacement ++ tail))))
        (staging.write path (head ++ getSubstitution anchor head tail replacement ++ tail)
          .patched) := by
  obtain ⟨anchorWellFormed, replacementWellFormed⟩ : isWellFormedText anchor = true ∧
      isWellFormedText replacement = true := clean.texts _ member ⟨_, _, _, _, member⟩
  have wellFormed := wellFormed_decodeUtf8 readable
  obtain ⟨head, tail, split, octetSplit, headWellFormed, tailWellFormed⟩ :=
    exists_split_of_applies wellFormed anchorWellFormed nonempty applies
  have legal := (legal_encodeUtf8 wellFormed anchorWellFormed nonempty).mpr applies
  rw [readable] at octetSplit legal
  have substituted := getSubstitution_wellFormed anchorWellFormed headWellFormed tailWellFormed
    replacementWellFormed
  refine ⟨head, tail, split, ?_, ?_, headWellFormed, tailWellFormed, ?_⟩
  · obtain ⟨first, last, sameSplit, applied⟩ := applyChange_legal held legal
    rw [octetSplit] at sameSplit
    cases sameSplit
    rw [applied, encodeUtf8_around headWellFormed replacementWellFormed]
  · rw [stageChange_applies base applies, replaceFirst_split split]
  · exact tracks.write clean member .patched fun _ =>
      isWellFormedText_append (isWellFormedText_append headWellFormed substituted) tailWellFormed

/-- A change that fits keeps the meanings together. -/
theorem Agree.snoc {change : ProposedChange} (member : change ∈ changes)
    (agree : Agree sha256Hex changes tree before) (fits : Fits sha256Hex tree before change) :
    Agree sha256Hex changes tree (before ++ [change]) := by
  rcases agree with ⟨illegal, refusal, refused⟩ | ⟨now, staging, legal, staged, tracks⟩
  · exact Agree.snoc_of_refused illegal refused
  rw [Agree, applyChanges_snoc, stageAll_snoc, legal, staged]
  simp only [Option.bind_some, Except.bind]
  cases change with
  | create path content =>
      exact Or.inr ⟨_, _, rfl, rfl, tracks.write clean member .created (clean.texts _ member)⟩
  | update path content =>
      exact Or.inr ⟨_, _, rfl, rfl, tracks.write clean member .modified (clean.texts _ member)⟩
  | delete path => exact Or.inr ⟨_, _, rfl, rfl, tracks.delete clean member⟩
  | patch path baseDigest anchor replacement nonempty =>
      have condition := fits now legal
      rcases tracks.baseText member with ⟨octets, held, base⟩ | ⟨absent, base⟩
      · simp only [held] at condition
        split_ifs at condition with readable
        · by_cases applies : Applies sha256Hex (decodeUtf8 octets) baseDigest anchor
          · obtain ⟨head, tail, split, applied, replaced, -, -, next⟩ :=
              patch_applies clean tracks member held base readable applies
            have anchorWellFormed : isWellFormedText anchor = true :=
              (clean.texts _ member ⟨_, _, _, _, member⟩).1
            have isLegal : Legal sha256Hex octets baseDigest anchor := by
              rw [← readable]
              exact (legal_encodeUtf8 (wellFormed_decodeUtf8 readable) anchorWellFormed
                nonempty).mpr applies
            rw [condition isLegal head tail split] at replaced next
            exact Or.inr ⟨_, _, applied, replaced, next⟩
          · have anchorWellFormed : isWellFormedText anchor = true :=
              (clean.texts _ member ⟨_, _, _, _, member⟩).1
            have isIllegal : ¬ Legal sha256Hex octets baseDigest anchor := by
              rw [← readable]
              rwa [legal_encodeUtf8 (wellFormed_decodeUtf8 readable) anchorWellFormed nonempty]
            exact Or.inl ⟨applyChange_refuses held isIllegal, stageChange_refuses base applies⟩
        · exact Or.inl ⟨applyChange_refuses held condition.1,
            stageChange_refuses base condition.2⟩
      · simp only [absent] at condition
        refine Or.inl ⟨by simp only [applyChange, absent], ?_⟩
        cases kept : tree (normalizeRelPath path) with
        | none =>
            rw [kept] at base
            exact stageChange_missing base
        | some octets =>
            rw [kept] at base
            exact stageChange_refuses base (condition octets kept)

/-- A change that does not fit is staged wrong. -/
theorem Agree.fits (collisionFree : Function.Injective sha256Hex) {change : ProposedChange}
    (member : change ∈ changes) (agree : Agree sha256Hex changes tree before)
    (right : StagesRight sha256Hex tree (before ++ [change])) :
    Fits sha256Hex tree before change := by
  cases change with
  | create path content => trivial
  | update path content => trivial
  | delete path => trivial
  | patch path baseDigest anchor replacement nonempty =>
      intro now legal
      rcases agree with ⟨illegal, -⟩ | ⟨other, staging, otherLegal, staged, tracks⟩
      · rw [illegal] at legal
        cases legal
      rw [otherLegal] at legal
      cases legal
      rw [StagesRight, stageChanges, applyChanges_snoc, stageAll_snoc, otherLegal, staged] at right
      simp only [Option.bind_some, Except.bind] at right
      rcases tracks.baseText member with ⟨octets, held, base⟩ | ⟨absent, base⟩
      · simp only [held]
        split_ifs with readable
        · intro isLegal head tail split
          obtain ⟨anchorWellFormed, replacementWellFormed⟩ : isWellFormedText anchor = true ∧
              isWellFormedText replacement = true := clean.texts _ member ⟨_, _, _, _, member⟩
          have applies : Applies sha256Hex (decodeUtf8 octets) baseDigest anchor := by
            rw [← legal_encodeUtf8 (wellFormed_decodeUtf8 readable) anchorWellFormed nonempty,
              readable]
            exact isLegal
          obtain ⟨first, last, sameSplit, applied, replaced, firstWellFormed, lastWellFormed, next⟩ :=
            patch_applies clean tracks member held base readable applies
          rw [split] at sameSplit
          cases sameSplit
          rw [applied, replaced] at right
          have trees : (now.set path (some (encodeUtf8
              (head ++ getSubstitution anchor head tail replacement ++ tail)))) =
                now.set path (some (encodeUtf8 (head ++ replacement ++ tail))) := by
            rw [← next.perform clean]
            exact Option.some.inj right
          have contents := congrFun trees (normalizeRelPath path)
          rw [Tree.set_self, Tree.set_self, Option.some.injEq] at contents
          have substituted := getSubstitution_wellFormed anchorWellFormed firstWellFormed
            lastWellFormed replacementWellFormed
          have texts := encodeUtf8_injective
            (isWellFormedText_append (isWellFormedText_append firstWellFormed substituted)
              lastWellFormed)
            (isWellFormedText_append (isWellFormedText_append firstWellFormed replacementWellFormed)
              lastWellFormed) contents
          exact List.append_cancel_left (List.append_cancel_right texts)
        · -- the two digests differ, so at most one of the two sides accepts
          by_cases isLegal : Legal sha256Hex octets baseDigest anchor
          · exfalso
            obtain ⟨head, tail, -, applied⟩ : ∃ head tail, _ ∧ applyChange sha256Hex now
                (.patch path baseDigest anchor replacement nonempty) = some _ :=
              applyChange_legal held isLegal
            have refused : ¬ Applies sha256Hex (decodeUtf8 octets) baseDigest anchor := by
              intro applies
              have digests : js "sha256:" ++ sha256Hex (encodeUtf8 (decodeUtf8 octets)) =
                  js "sha256:" ++ sha256Hex octets := applies.1.trans isLegal.1.symm
              exact readable (collisionFree (List.append_cancel_left digests))
            obtain ⟨refusal, refusedStage⟩ : ∃ refusal, stageChange sha256Hex tree staging
                (.patch path baseDigest anchor replacement nonempty) = .error refusal :=
              stageChange_refuses base refused
            rw [applied, refusedStage] at right
            cases right
          · refine ⟨isLegal, fun applies => ?_⟩
            rw [applyChange_refuses held isLegal, stageChange_applies base applies] at right
            cases right
      · simp only [absent]
        intro octets kept applies
        rw [kept] at base
        have illegal : applyChange sha256Hex now
            (.patch path baseDigest anchor replacement nonempty) = none := by
          simp only [applyChange, absent]
        rw [illegal, stageChange_applies base applies] at right
        cases right

end Lists

/-- Staging and sequential application.  For a list in which every file is spelled in one
way and the texts of the patched files have no unpaired surrogates: the list and all lists
it starts with are staged right if and only if every change fits at its position. -/
theorem stageChanges_sequential_iff (sha256Hex : List Octet → JsString)
    (collisionFree : Function.Injective sha256Hex) (tree : Tree) (changes : List ProposedChange)
    (clean : Clean changes) :
    (∀ before, before <+: changes → StagesRight sha256Hex tree before) ↔
      ∀ before change after, changes = before ++ change :: after →
        Fits sha256Hex tree before change := by
  have agrees : ∀ before after, changes = before ++ after →
      (∀ front change rest, before = front ++ change :: rest → Fits sha256Hex tree front change) →
      Agree sha256Hex changes tree before := by
    intro before
    induction before using List.reverseRecOn with
    | nil =>
        intro _ _ _
        exact Or.inr ⟨tree, Staging.empty, rfl, rfl, tracks_empty⟩
    | append_singleton before change inductionHypothesis =>
        intro after split fits
        have member : change ∈ changes := by simp [split]
        refine (inductionHypothesis (change :: after) (by simp [split]) ?_).snoc clean member
          (fits before change [] rfl)
        intro front other rest shape
        exact fits front other (rest ++ [change]) (by simp [shape])
  constructor
  · intro right before change after split
    -- the changes before this one fit, by induction on their number
    have earlier : ∀ count front other rest, front.length = count →
        changes = front ++ other :: rest → Fits sha256Hex tree front other := by
      intro count
      induction count using Nat.strongRecOn with
      | _ count inductionHypothesis =>
          intro front other rest length shape
          have agree := agrees front (other :: rest) shape (by
            intro first next last inner
            refine inductionHypothesis first.length ?_ first next (last ++ other :: rest) rfl
              (by simp [shape, inner])
            rw [← length, inner, List.length_append, List.length_cons]
            omega)
          exact agree.fits clean collisionFree (by simp [shape])
            (right _ ⟨rest, by simp [shape]⟩)
    exact earlier before.length before change after rfl split
  · rintro fits before ⟨after, split⟩
    refine (agrees before after split.symm ?_).stagesRight clean
    intro front change rest shape
    exact fits front change (rest ++ after) (by simp [← split, shape])

/-- A worktree with one file of one letter. -/
def oneLetterTree : Tree :=
  fun key => if key = js "f" then some (encodeUtf8 (js "a")) else none

/-- The SHA-256 digest of the letter; other contents are their own digests. -/
def oneLetterHash (octets : List Octet) : JsString :=
  if octets = encodeUtf8 (js "a") then
    js "ca978112ca1bbdcafac231b39a23dc4da786eff8147c4e72b9807785afee48bb"
  else
    unit 'x' :: octets.map fun code => Fin.castLE (by decide) code

theorem oneLetterHash_injective : Function.Injective oneLetterHash := by
  intro first second same
  simp only [oneLetterHash] at same
  split_ifs at same with firstLetter secondLetter secondLetter
  · rw [firstLetter, secondLetter]
  · exact absurd (List.cons.inj same).1 (by decide)
  · exact absurd (List.cons.inj same).1 (by decide)
  · exact List.map_injective_iff.mpr (Fin.castLE_injective _) (List.cons.inj same).2

theorem oneLetter_ne_nil : js "a" ≠ [] := by
  decide

/-- A patch of the file. -/
def oneLetterPatch (replacement : JsString) : ProposedChange :=
  .patch (js "f") (fileDigest oneLetterHash (js "a")) (js "a") replacement oneLetter_ne_nil

/-- A patch with a plain replacement is staged right. -/
theorem stageChanges_sequential_iff_plainPatch :
    StagesRight oneLetterHash oneLetterTree [oneLetterPatch (js "b")] := by
  refine (stageChanges_sequential_iff oneLetterHash oneLetterHash_injective oneLetterTree
    [oneLetterPatch (js "b")] ⟨by simp, ?_⟩).mpr ?_ _ (List.prefix_refl _)
  · intro change member _
    rw [List.mem_singleton.mp member]
    exact ⟨by decide, by decide⟩
  · intro before change after split
    obtain ⟨rfl, rest⟩ | ⟨more, -, rest⟩ := List.cons_eq_append_iff.mp split
    · rw [(List.cons.inj rest).1]
      intro now legal
      cases legal
      have held : oneLetterTree (normalizeRelPath (js "f")) = some (encodeUtf8 (js "a")) := by
        decide +kernel
      simp only [held]
      rw [if_pos (by decide +kernel)]
      intro _ _ _ _
      rfl
    · exact absurd rest (by simp)

/-- Three lists that are staged wrong: a replacement of two dollar signs, a patch of a file
that was deleted before, and a file that is deleted and then created under another spelling
of its path. -/
theorem not_stagesRight :
    ¬ StagesRight oneLetterHash oneLetterTree [oneLetterPatch (js "$$")] ∧
      ¬ StagesRight oneLetterHash oneLetterTree [.delete (js "f"), oneLetterPatch (js "b")] ∧
      ¬ StagesRight oneLetterHash oneLetterTree
        [.delete (js "f"), .create (js "./f") (js "b")] := by
  have value : ∀ changes, StagesRight oneLetterHash oneLetterTree changes →
      ((stageChanges oneLetterHash oneLetterTree changes).toOption.map
          (perform oneLetterTree)).map (fun tree => tree (js "f")) =
        (applyChanges oneLetterHash oneLetterTree changes).map fun tree => tree (js "f") :=
    fun changes right => congrArg (Option.map fun tree => tree (js "f")) right
  refine ⟨fun right => ?_, fun right => ?_, fun right => ?_⟩
  · exact absurd (value _ right) (by decide +kernel)
  · exact absurd (value _ right) (by decide +kernel)
  · exact absurd (value _ right) (by decide +kernel)

end SpecAsCode.Executor
