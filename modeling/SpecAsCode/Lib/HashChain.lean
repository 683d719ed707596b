import Mathlib.Data.List.Forall2
import Mathlib.Data.List.Induction

/-!
# Hash-chained logs

A log in which every record may carry the digest of the record before it.  A log is
chained throughout or not at all.  Two chained logs whose last records have one digest
are the same log, as far as the digest identifies records.
-/

namespace SpecAsCode.HashChain

variable {Record Digest Failure : Type}

/-- How records are linked.  `link` is the digest a record carries of its predecessor,
`digest` the digest its successor must carry. -/
structure Format (Record Digest Failure : Type) where
  link : Record → Option Digest
  digest : Record → Except Failure Digest
  genesis : Digest

/-- Whether the records of a log carry digests. -/
inductive Status where
  | chained
  | legacy
  deriving DecidableEq

/-- The records read so far and what kind of log they make. -/
structure Log (Record : Type) where
  records : List Record
  status : Option Status

/-- The log before the first record. -/
def Log.empty : Log Record :=
  ⟨[], none⟩

/-- Why a record is refused. -/
inductive Refusal (Failure : Type) where
  /-- A record with a digest in a log without. -/
  | linkInLegacyLog
  /-- A record without a digest in a log with. -/
  | missingLink
  /-- The first record does not carry the genesis digest. -/
  | notGenesis
  /-- The record does not carry the digest of its predecessor. -/
  | broken
  /-- The predecessor has no digest. -/
  | noDigest (failure : Failure)

variable [DecidableEq Digest] (format : Format Record Digest Failure)

/-- Reading one more record. -/
def accept (log : Log Record) (record : Record) : Except (Refusal Failure) (Log Record) :=
  match format.link record with
  | some link =>
      if log.status = some .legacy then
        .error .linkInLegacyLog
      else
        match log.records.getLast? with
        | none =>
            if link = format.genesis then .ok ⟨log.records ++ [record], some .chained⟩
            else .error .notGenesis
        | some previous =>
            match format.digest previous with
            | .error failure => .error (.noDigest failure)
            | .ok digest =>
                if link = digest then .ok ⟨log.records ++ [record], some .chained⟩
                else .error .broken
  | none =>
      if log.status = some .chained then
        .error .missingLink
      else
        .ok ⟨log.records ++ [record], some .legacy⟩

/-- Reading records one after another. -/
def acceptAll (log : Log Record) (records : List Record) :
    Except (Refusal Failure) (Log Record) :=
  records.foldlM (accept format) log

variable {format}

/-- Every record carries the digest of its predecessor, and the first one the genesis
digest. -/
inductive Linked (format : Format Record Digest Failure) : List Record → Prop
  | nil : Linked format []
  | first {record : Record} (link : format.link record = some format.genesis) :
      Linked format [record]
  | next {records : List Record} {previous record : Record} {digest : Digest}
      (before : Linked format (records ++ [previous]))
      (known : format.digest previous = .ok digest)
      (link : format.link record = some digest) :
      Linked format (records ++ [previous] ++ [record])

/-- The log of some linked records. -/
def chainedLog (records : List Record) : Log Record :=
  ⟨records, if records = [] then none else some .chained⟩

omit [DecidableEq Digest] in
@[simp]
theorem chainedLog_snoc (records : List Record) (record : Record) :
    chainedLog (records ++ [record]) = ⟨records ++ [record], some .chained⟩ := by
  simp [chainedLog]

theorem acceptAll_snoc (log : Log Record) (records : List Record) (record : Record) :
    acceptAll format log (records ++ [record]) =
      (acceptAll format log records).bind fun next => accept format next record := by
  have single : ∀ next, List.foldlM (accept format) next [record] = accept format next record := by
    intro next
    rw [List.foldlM_cons]
    exact bind_pure _
  unfold acceptAll
  rw [List.foldlM_append]
  cases List.foldlM (accept format) log records with
  | error refusal => rfl
  | ok next => exact single next

/-- What admission does, whatever the log. -/
theorem accept_ok {log next : Log Record} {record : Record}
    (accepted : accept format log record = .ok next) :
    next.records = log.records ++ [record] ∧
      ((next.status = some .legacy ∧ log.status ≠ some .chained ∧ format.link record = none) ∨
        (next.status = some .chained ∧ log.status ≠ some .legacy ∧
          ((log.records = [] ∧ format.link record = some format.genesis) ∨
            ∃ previous digest, log.records.getLast? = some previous ∧
              format.digest previous = .ok digest ∧ format.link record = some digest))) := by
  rw [accept] at accepted
  split at accepted
  next link linked =>
    split at accepted
    next => cases accepted
    next notLegacy =>
      split at accepted
      next empty =>
        split at accepted
        next genesis =>
          cases accepted
          exact ⟨rfl, Or.inr ⟨rfl, notLegacy,
            Or.inl ⟨List.getLast?_eq_none_iff.mp empty, by rw [linked, genesis]⟩⟩⟩
        next => cases accepted
      next previous last =>
        split at accepted
        next => cases accepted
        next digest known =>
          split at accepted
          next same =>
            cases accepted
            exact ⟨rfl, Or.inr ⟨rfl, notLegacy,
              Or.inr ⟨previous, digest, last, known, by rw [linked, same]⟩⟩⟩
          next => cases accepted
  next unlinked =>
    split at accepted
    next => cases accepted
    next notChained =>
      cases accepted
      exact ⟨rfl, Or.inl ⟨rfl, notChained, unlinked⟩⟩

/-- The logs admission builds: empty, legacy or linked. -/
def Sound (format : Format Record Digest Failure) (log : Log Record) : Prop :=
  log.status = some .legacy ∨ (Linked format log.records ∧ log = chainedLog log.records)

theorem Sound.accept {log next : Log Record} {record : Record} (sound : Sound format log)
    (accepted : accept format log record = .ok next) : Sound format next := by
  obtain ⟨records, legacy | ⟨chained, notLegacy, linked⟩⟩ := accept_ok accepted
  · exact Or.inl legacy.1
  · obtain ⟨before, -⟩ := sound.resolve_left notLegacy
    have shape : next = chainedLog next.records := by
      obtain ⟨nextRecords, status⟩ := next
      simp only at records chained
      rw [chained, records, chainedLog_snoc]
    refine Or.inr ⟨?_, shape⟩
    rw [records]
    rcases linked with ⟨empty, genesis⟩ | ⟨previous, digest, last, known, link⟩
    · rw [empty]
      exact .first genesis
    · obtain ⟨initial, split⟩ := List.getLast?_eq_some_iff.mp last
      rw [split] at before ⊢
      exact .next before known link

theorem sound_acceptAll {log : Log Record} {records : List Record}
    (accepted : acceptAll format Log.empty records = .ok log) :
    Sound format log ∧ log.records = records := by
  induction records using List.reverseRecOn generalizing log with
  | nil =>
      cases accepted
      exact ⟨Or.inr ⟨.nil, rfl⟩, rfl⟩
  | append_singleton records record inductionHypothesis =>
      rw [acceptAll_snoc] at accepted
      cases before : acceptAll format Log.empty records with
      | error refusal => rw [before] at accepted; cases accepted
      | ok middle =>
          rw [before] at accepted
          obtain ⟨sound, same⟩ := inductionHypothesis before
          exact ⟨sound.accept accepted, by rw [(accept_ok accepted).1, same]⟩

/-- The last record of a log without digests carries none. -/
theorem link_of_legacy {log : Log Record} {records : List Record} {record : Record}
    (accepted : acceptAll format Log.empty (records ++ [record]) = .ok log)
    (legacy : log.status = some .legacy) : format.link record = none := by
  rw [acceptAll_snoc] at accepted
  cases before : acceptAll format Log.empty records with
  | error refusal => rw [before] at accepted; cases accepted
  | ok middle =>
      rw [before] at accepted
      obtain ⟨-, ⟨-, -, unlinked⟩ | ⟨chained, -⟩⟩ := accept_ok accepted
      · exact unlinked
      · rw [legacy] at chained
        cases chained

/-- A record that carries the right digest is accepted. -/
theorem accept_chained {records : List Record} {record : Record}
    (linked : Linked format (records ++ [record])) :
    accept format (chainedLog records) record = .ok (chainedLog (records ++ [record])) := by
  generalize shape : records ++ [record] = all at linked
  cases linked with
  | nil => exact absurd shape (by simp)
  | @first only link =>
      obtain ⟨rfl, same⟩ := @List.append_inj' _ records _ [] _ shape rfl
      cases same
      rw [accept]
      simp [link, chainedLog]
  | @next initial previous last digest before known link =>
      obtain ⟨rfl, same⟩ := List.append_inj' shape rfl
      cases same
      rw [accept, link]
      simp [chainedLog, known]

omit [DecidableEq Digest] in
/-- The last one of some linked records carries a digest. -/
theorem Linked.last_link {records : List Record} {last : Record} (linked : Linked format records)
    (ends : records.getLast? = some last) : ∃ link, format.link last = some link := by
  cases linked with
  | nil => cases ends
  | first link =>
      rw [List.getLast?_singleton] at ends
      cases ends
      exact ⟨_, link⟩
  | next _ _ link =>
      rw [List.getLast?_concat] at ends
      cases ends
      exact ⟨_, link⟩

/-- Linked records make an accepted log. -/
theorem Linked.acceptAll {records : List Record} (linked : Linked format records) :
    acceptAll format Log.empty records = .ok (chainedLog records) := by
  induction linked with
  | nil => rfl
  | @first record link =>
      have accepted := @accept_chained _ _ _ _ format [] record (Linked.first link)
      rw [← List.nil_append [record], acceptAll_snoc]
      exact accepted
  | @next initial previous last digest before known link inductionHypothesis =>
      rw [acceptAll_snoc, inductionHypothesis]
      exact accept_chained (.next before known link)

/-- Digests identify records up to `Same`, and no digest is the genesis digest. -/
structure CollisionFree (format : Format Record Digest Failure) (Same : Record → Record → Prop)
    (first second : List Record) : Prop where
  identifies : ∀ record ∈ first, ∀ other ∈ second, ∀ digest,
    format.digest record = .ok digest → format.digest other = .ok digest → Same record other
  notGenesis : ∀ record, record ∈ first ∨ record ∈ second →
    format.digest record ≠ .ok format.genesis

omit [DecidableEq Digest] in
theorem CollisionFree.mono {Same : Record → Record → Prop} {first second shorter other : List Record}
    (collisionFree : CollisionFree format Same first second) (fewer : shorter ⊆ first)
    (otherFewer : other ⊆ second) : CollisionFree format Same shorter other where
  identifies record member next found :=
    collisionFree.identifies record (fewer member) next (otherFewer found)
  notGenesis record member := collisionFree.notGenesis record
    (member.imp (fun found => fewer found) fun found => otherFewer found)

omit [DecidableEq Digest] in
/-- The last record determines a linked log. -/
theorem Linked.unique {Same : Record → Record → Prop}
    (sameLink : ∀ record other, Same record other → format.link record = format.link other)
    {first second : List Record} (linked : Linked format first) (otherLinked : Linked format second)
    (collisionFree : CollisionFree format Same first second)
    {last otherLast : Record} (ends : first.getLast? = some last)
    (otherEnds : second.getLast? = some otherLast) (same : Same last otherLast) :
    List.Forall₂ Same first second := by
  -- backwards along the chain: equal last records carry equal digests of their predecessors
  have links := sameLink last otherLast same
  induction linked generalizing second last otherLast with
  | nil => cases ends
  | @first record link =>
      rw [List.getLast?_singleton] at ends
      cases ends
      cases otherLinked with
      | nil => cases otherEnds
      | @first other otherLink =>
          rw [List.getLast?_singleton] at otherEnds
          cases otherEnds
          exact .cons same .nil
      | @next initial previous other otherDigest before previousKnown otherLink =>
          rw [List.getLast?_concat] at otherEnds
          cases otherEnds
          rw [link, otherLink] at links
          cases links
          exact absurd previousKnown (collisionFree.notGenesis previous (Or.inr (by simp)))
  | @next initial previous record previousDigest before previousKnown link inductionHypothesis =>
      rw [List.getLast?_concat] at ends
      cases ends
      cases otherLinked with
      | nil => cases otherEnds
      | @first other otherLink =>
          rw [List.getLast?_singleton] at otherEnds
          cases otherEnds
          rw [link, otherLink] at links
          cases links
          exact absurd previousKnown (collisionFree.notGenesis previous (Or.inl (by simp)))
      | @next otherInitial otherPrevious other otherDigest otherBefore otherPreviousKnown otherLink =>
          rw [List.getLast?_concat] at otherEnds
          cases otherEnds
          rw [link, otherLink] at links
          cases links
          have samePrevious := collisionFree.identifies previous (by simp) otherPrevious (by simp)
            previousDigest previousKnown otherPreviousKnown
          refine List.rel_append ?_ (.cons same .nil)
          exact inductionHypothesis otherBefore
            (collisionFree.mono (List.subset_append_left _ _) (List.subset_append_left _ _))
            (List.getLast?_concat ..) (List.getLast?_concat ..) samePrevious
            (sameLink _ _ samePrevious)

end SpecAsCode.HashChain
